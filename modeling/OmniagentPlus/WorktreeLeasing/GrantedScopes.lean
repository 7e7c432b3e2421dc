import OmniagentPlus.WorktreeLeasing.SupabaseLeaseStore

/-! The scope of a granted lease beside the one requested. A store checks the scope that it has put into
normal form, where selectors are shorter or gone. -/
namespace OmniagentPlus.WorktreeLeasing
open OmniagentPlus.Foundation OmniagentPlus.CoreContracts OmniagentPlus.StateLedger

section Selectors

/-- What a selector denotes: the whole repository, the files at or below a path, or a symbol. -/
def Denotes (granularity : Granularity) (selector target : Text) : Prop :=
  match granularity with
  | .repo => True
  | .pathSet => segments selector <+: segments target
  | .symbol => trimSlashes target = trimSlashes selector

/-- A scope overlaps a path or a symbol. -/
def Overlaps (scope : LeaseScope) (target : Text) : Prop :=
  match scope.granularity with
  | .repo => True
  | .pathSet => ∃ selector ∈ scope.selector, PathsOverlap selector target
  | .symbol => ∃ selector ∈ scope.selector, trimSlashes selector = trimSlashes target

/-- The granted scope overlaps everything that each requested selector denotes. -/
def CoversSelectors (granted requested : LeaseScope) : Prop :=
  ∀ selector ∈ requested.selector, ∀ target, Denotes requested.granularity selector target → Overlaps granted target

/-- A selector that keeps what the schema looks at: it is not made of slashes alone, and it is no drive with
nothing but slashes behind it. -/
def KeepsForm (selector : Text) : Prop :=
  trimSlashes selector ≠ [] ∧ (isDriveQualified selector = true → isDriveQualified (trimSlashes selector) = true)

instance (selector : Text) : Decidable (KeepsForm selector) := by unfold KeepsForm; infer_instance

lemma trimSlashes_append_slash (t : Text) : trimSlashes (t ++ [slash]) = trimSlashes t :=
  List.rdropWhile_concat_pos _ _ _ (by simp)

/-- Trailing slashes make no parent segment. -/
lemma hasParentSegment_trimSlashes (t : Text) : hasParentSegment (trimSlashes t) = hasParentSegment t := by
  induction t using List.reverseRecOn with
  | nil => rfl
  | append_singleton t u ih =>
    by_cases h : u = slash
    · subst h
      have hsplit := List.splitOn_append_cons_self (a := slash) t []
      rw [trimSlashes_append_slash, ih, hasParentSegment, hasParentSegment, hsplit]
      simp
    · rw [trimSlashes, List.rdropWhile_concat_neg _ _ _ (by simpa using h)]

lemma trimSlashes_front (t : Text) : trimSlashes t <+: t := List.rdropWhile_prefix _ _

/-- The first unit of a selector that is not slashes alone. -/
lemma startsWith_trimSlashes {t : Text} (h : trimSlashes t ≠ []) :
    [slash].isPrefixOf (trimSlashes t) = [slash].isPrefixOf t := by
  obtain ⟨rest,hrest⟩ := trimSlashes_front t
  obtain ⟨u,front,hfront⟩ := List.exists_cons_of_ne_nil h
  have ht : t = u :: (front ++ rest) := hrest.symm.trans (by rw [hfront]; rfl)
  rw [hfront, ht]
  rfl

/-- A drive stays one behind more text. -/
lemma isDriveQualified_append (rest : Text) {front : Text} (h : isDriveQualified front = true) :
    isDriveQualified (front ++ rest) = true := by
  unfold isDriveQualified at h
  split at h
  · exact h
  · cases h

/-- What the schema says of a selector, by its normal form. -/
theorem selectorAllowed_iff {t : Text} :
    selectorAllowed t = true ↔ KeepsForm t ∧ selectorAllowed (trimSlashes t) = true := by
  by_cases hnil : trimSlashes t = []
  · constructor
    · exact fun h => absurd hnil (trimSlashes_ne_nil h)
    · exact fun h => absurd hnil h.1.1
  have ht : t ≠ [] := fun h => hnil (by rw [h]; rfl)
  simp only [selectorAllowed, KeepsForm, Bool.and_eq_true, Bool.not_eq_true', List.isEmpty_eq_false_iff,
    startsWith_trimSlashes hnil, hasParentSegment_trimSlashes]
  constructor
  · rintro ⟨⟨⟨-,hrooted⟩,hparent⟩,hdrive⟩
    refine ⟨⟨hnil,fun h => absurd h (by simp [hdrive])⟩,⟨⟨hnil,hrooted⟩,hparent⟩,?_⟩
    by_contra htrimmed
    obtain ⟨rest,hrest⟩ := trimSlashes_front t
    have := isDriveQualified_append rest (Bool.eq_true_of_not_eq_false htrimmed)
    rw [hrest, hdrive] at this
    cases this
  · rintro ⟨⟨-,hkeeps⟩,⟨⟨-,hrooted⟩,hparent⟩,hdrive⟩
    refine ⟨⟨⟨ht,hrooted⟩,hparent⟩,?_⟩
    by_contra hdriven
    rw [hkeeps (Bool.eq_true_of_not_eq_false hdriven)] at hdrive
    cases hdrive

/-- A scope whose normal form is accepted is accepted as given, where its selectors keep their form. -/
theorem allowed_iff {s : LeaseScope} (h : (normalizeLeaseScope s).allowed = true) :
    s.allowed = true ↔ ∀ t ∈ s.selector, KeepsForm t := by
  simp only [LeaseScope.allowed, normalizeLeaseScope, Bool.and_eq_true, Bool.not_eq_true', List.isEmpty_eq_false_iff,
    List.all_eq_true] at h ⊢
  obtain ⟨hne,hall⟩ := h
  constructor
  · exact fun hs t ht => (selectorAllowed_iff.mp (hs.2 t ht)).1
  · intro hkeeps
    refine ⟨?_,fun t ht => selectorAllowed_iff.mpr ⟨hkeeps t ht,?_⟩⟩
    · rintro hnil
      obtain ⟨t,ht⟩ := List.exists_mem_of_ne_nil _ hne
      obtain ⟨-,u,hu,-⟩ := mem_normalizeSelector.mp ht
      rw [hnil] at hu
      cases hu
    · exact hall _ (mem_normalizeSelector.mpr ⟨(hkeeps t ht).1,t,ht,rfl⟩)

/-- No selector is dropped or narrowed that keeps its form. -/
theorem coversSelectors_normalize {s : LeaseScope} (h : ∀ t ∈ s.selector, KeepsForm t) :
    CoversSelectors (normalizeLeaseScope s) s := by
  intro selector hselector target hdenotes
  have hmem : trimSlashes selector ∈ normalizeSelector s.selector :=
    mem_normalizeSelector.mpr ⟨(h selector hselector).1,selector,hselector,rfl⟩
  obtain ⟨granularity,selectors⟩ := s
  cases granularity with
  | repo => trivial
  | pathSet => exact ⟨_,hmem,Or.inl (by rw [segments_trimSlashes]; exact hdenotes)⟩
  | symbol => exact ⟨_,hmem,(List.rdropWhile_idempotent _ selector).trans hdenotes.symm⟩

end Selectors
section Stores

/-- The scope as given passes the schema, and the lease that is granted covers it. -/
def ScopeHonoured (requested : LeaseScope) (result : LeaseAcquireResult) : Prop :=
  requested.allowed = true ∧ ∀ lease ∈ result.lease, CoversSelectors lease.scope requested

/-- A store whose leases have the normal form of the requested scope honours the scopes that keep their form. -/
theorem scopeHonoured_iff {requested : LeaseScope} {result : LeaseAcquireResult}
    (hallowed : (normalizeLeaseScope requested).allowed = true)
    (hgranted : ∀ lease ∈ result.lease, lease.scope = normalizeLeaseScope requested) :
    ScopeHonoured requested result ↔ ∀ t ∈ requested.selector, KeepsForm t := by
  constructor
  · exact fun h => (allowed_iff hallowed).mp h.1
  · intro h
    refine ⟨(allowed_iff hallowed).mpr h,fun lease hlease => ?_⟩
    rw [hgranted lease hlease]
    exact coversSelectors_normalize h

/-- What the local store checks, and the scope of the lease that it grants. -/
theorem acquire_scope {file : Option LocalLeaseStoreState} {request : LeaseAcquireRequest} {prepared clock : ℤ}
    {uuid : Text} {result : LeaseAcquireResult} {written : Option LocalLeaseStoreState}
    (h : acquire file request prepared clock uuid = .ok (result,written)) :
    (normalizeLeaseScope request.scope).allowed = true ∧
      ∀ lease ∈ result.lease, lease.scope = normalizeLeaseScope request.scope := by
  unfold acquire at h
  obtain ⟨draft,hdraft,h⟩ := except_bind_eq_ok.mp h
  obtain ⟨lease,hlease,h⟩ := except_bind_eq_ok.mp h
  obtain ⟨state,-,h⟩ := except_bind_eq_ok.mp h
  have hscope : lease.scope = normalizeLeaseScope request.scope := by
    rw [parseLease_eq_ok.mp hlease, parseLease_eq_ok.mp hdraft]
  refine ⟨hscope ▸ lease.scope_allowed,?_⟩
  dsimp only at h
  split at h
  · obtain ⟨t,-,h⟩ := except_bind_eq_ok.mp h
    cases h
    exact fun l hl => by cases hl
  · split at h
    · obtain ⟨t,-,h⟩ := except_bind_eq_ok.mp h
      cases h
      exact fun l hl => by cases hl
    · obtain ⟨t,-,h⟩ := except_bind_eq_ok.mp h
      cases h
      intro l hl
      cases hl
      exact hscope

/-- The database grants the scope that it is asked for. -/
lemma coordinationAcquireLease_scope {t after : CoordinationTables} {request : LeaseAcquireRequest} {swept clock : ℤ}
    {uuid : Text} {uuids : ℕ → ℕ} {answer : SqlAnswer}
    (h : coordinationAcquireLease t request swept clock uuid uuids = .ok (answer,after)) (hdone : answer.done = true) :
    ∀ l ∈ answer.lease, l.scope = request.scope := by
  unfold coordinationAcquireLease at h
  dsimp only at h
  split at h
  · cases h
  split at h
  · cases h
  obtain ⟨⟨drawn,swept⟩,-,h⟩ := except_bind_eq_ok.mp h
  dsimp only at h
  split at h
  · cases h
    cases hdone
  · split at h
    · cases h
      cases hdone
    · split at h
      · cases h
      obtain ⟨pruned,-,h⟩ := except_bind_eq_ok.mp h
      cases h
      intro l hl
      cases hl
      rfl

/-- What the Supabase store checks, and the scope of the lease that it reports as granted. -/
theorem supabaseAcquire_scope {t after : CoordinationTables} {request : LeaseAcquireRequest} {prepared clock : ℤ}
    {uuid : Text} {uuids : ℕ → ℕ} {result : LeaseAcquireResult}
    (h : SupabaseLeaseStore.acquire t request prepared clock uuid uuids = .ok (result,after)) :
    (normalizeLeaseScope request.scope).allowed = true ∧
      ∀ lease ∈ result.lease, lease.scope = normalizeLeaseScope request.scope := by
  unfold SupabaseLeaseStore.acquire at h
  obtain ⟨lease,hlease,h⟩ := except_bind_eq_ok.mp h
  have hscope : lease.scope = normalizeLeaseScope request.scope := by
    rw [parseLease_eq_ok.mp hlease]
    exact normalizeLeaseScope_idem request.scope
  refine ⟨hscope ▸ lease.scope_allowed,?_⟩
  split at h
  · cases h
    exact fun l hl => by cases hl
  next answer after' hanswer =>
    cases h
    cases hdecoded : decodeAcquire answer with
    | none => exact fun l hl => by cases hl
    | some decoded =>
      unfold decodeAcquire at hdecoded
      split at hdecoded
      · cases hdecoded
      next fields hfields =>
        obtain ⟨granted,hgranted,rfl⟩ := Option.map_eq_some_iff.mp hdecoded
        intro l hl
        rw [Option.getD_some] at hl
        split_ifs at hl with hdone
        · cases hl
          have hanswered := coordinationAcquireLease_scope hanswer hdone fields hfields
          rw [consiliencyLeaseSchema_eq_some.mp hgranted, hanswered]
          exact hscope
        · cases hl

/-- A store that takes a request honours its scope exactly where every selector keeps its form. -/
theorem grantedScope_iff (request : LeaseAcquireRequest) :
    (∀ file prepared clock uuid result written, acquire file request prepared clock uuid = .ok (result,written) →
      (ScopeHonoured request.scope result ↔ ∀ t ∈ request.scope.selector, KeepsForm t)) ∧
    ∀ t prepared clock uuid uuids result after,
      SupabaseLeaseStore.acquire t request prepared clock uuid uuids = .ok (result,after) →
        (ScopeHonoured request.scope result ↔ ∀ t ∈ request.scope.selector, KeepsForm t) := by
  constructor
  · intro file prepared clock uuid result written h
    obtain ⟨hallowed,hgranted⟩ := acquire_scope h
    exact scopeHonoured_iff hallowed hgranted
  · intro t prepared clock uuid uuids result after h
    obtain ⟨hallowed,hgranted⟩ := supabaseAcquire_scope h
    exact scopeHonoured_iff hallowed hgranted

end Stores
section Samples

/-- A request for some paths. -/
def pathsRequest (selector : List String) : LeaseAcquireRequest :=
  ⟨some (Text.of "lease:a"),Text.of "agent",60,.hard,⟨.pathSet,selector.map Text.of⟩,Text.of "work",none⟩

/-- The stores before anything is acquired. -/
def noTables : CoordinationTables := ⟨.empty,[]⟩

theorem grantedScope_iff_trailing :
    (∃ result written, acquire none (pathsRequest ["src/"]) 0 0 [] = .ok (result,written) ∧
      ScopeHonoured (pathsRequest ["src/"]).scope result) ∧
    ∃ result after, SupabaseLeaseStore.acquire noTables (pathsRequest ["src/"]) 0 0 [] id = .ok (result,after) ∧
      ScopeHonoured (pathsRequest ["src/"]).scope result := by
  have hform : ∀ t ∈ (pathsRequest ["src/"]).scope.selector, KeepsForm t := by decide +kernel
  have hlocal : (acquire none (pathsRequest ["src/"]) 0 0 []).toOption.isSome = true := by decide +kernel
  have hsql : (SupabaseLeaseStore.acquire noTables (pathsRequest ["src/"]) 0 0 [] id).toOption.isSome = true := by
    decide +kernel
  constructor
  · cases h : acquire none (pathsRequest ["src/"]) 0 0 [] with
    | error e =>
      rw [h] at hlocal
      cases hlocal
    | ok answer => exact ⟨answer.1,answer.2,rfl,((grantedScope_iff (pathsRequest ["src/"])).1 _ _ _ _ _ _ h).mpr hform⟩
  · cases h : SupabaseLeaseStore.acquire noTables (pathsRequest ["src/"]) 0 0 [] id with
    | error e =>
      rw [h] at hsql
      cases hsql
    | ok answer => exact ⟨answer.1,answer.2,rfl,((grantedScope_iff (pathsRequest ["src/"])).2 _ _ _ _ _ _ _ h).mpr hform⟩

/-- The selector `/` asks for everything and is dropped: the schema refuses the scope as given, and the lease
that is granted leaves `docs` to others. -/
theorem grantedScope_dropped :
    (∃ result written lease, acquire none (pathsRequest ["/","src"]) 0 0 [] = .ok (result,written) ∧
      result.lease = some lease ∧ (pathsRequest ["/","src"]).scope.allowed = false ∧
        ¬CoversSelectors lease.scope (pathsRequest ["/","src"]).scope) ∧
    ∃ result after lease, SupabaseLeaseStore.acquire noTables (pathsRequest ["/","src"]) 0 0 [] id = .ok (result,after) ∧
      result.lease = some lease ∧ (pathsRequest ["/","src"]).scope.allowed = false ∧
        ¬CoversSelectors lease.scope (pathsRequest ["/","src"]).scope := by
  have hrefused : (pathsRequest ["/","src"]).scope.allowed = false := by decide +kernel
  have hnormal : normalizeLeaseScope (pathsRequest ["/","src"]).scope = ⟨.pathSet,[Text.of "src"]⟩ := by decide +kernel
  have huncovered : ¬CoversSelectors ⟨.pathSet,[Text.of "src"]⟩ (pathsRequest ["/","src"]).scope := by
    intro h
    have hroot : Text.of "/" ∈ (pathsRequest ["/","src"]).scope.selector := List.mem_cons_self
    have hbelow : segments (Text.of "/") <+: segments (Text.of "docs") := by decide +kernel
    obtain ⟨selector,hselector,hoverlap⟩ := h (Text.of "/") hroot (Text.of "docs") hbelow
    rw [List.mem_singleton.mp hselector] at hoverlap
    exact absurd hoverlap (by decide +kernel)
  constructor
  · have hlocal : (acquire none (pathsRequest ["/","src"]) 0 0 []).toOption.any (fun answer => answer.1.lease.isSome) =
        true := by decide +kernel
    cases h : acquire none (pathsRequest ["/","src"]) 0 0 [] with
    | error e =>
      rw [h] at hlocal
      cases hlocal
    | ok answer =>
      rw [h] at hlocal
      obtain ⟨lease,hlease⟩ := Option.isSome_iff_exists.mp hlocal
      refine ⟨answer.1,answer.2,lease,rfl,hlease,hrefused,?_⟩
      rw [(acquire_scope h).2 lease hlease, hnormal]
      exact huncovered
  · have hsql : (SupabaseLeaseStore.acquire noTables (pathsRequest ["/","src"]) 0 0 [] id).toOption.any
        (fun answer => answer.1.lease.isSome) = true := by decide +kernel
    cases h : SupabaseLeaseStore.acquire noTables (pathsRequest ["/","src"]) 0 0 [] id with
    | error e =>
      rw [h] at hsql
      cases hsql
    | ok answer =>
      rw [h] at hsql
      obtain ⟨lease,hlease⟩ := Option.isSome_iff_exists.mp hsql
      refine ⟨answer.1,answer.2,lease,rfl,hlease,hrefused,?_⟩
      rw [(supabaseAcquire_scope h).2 lease hlease, hnormal]
      exact huncovered

end Samples
end OmniagentPlus.WorktreeLeasing
