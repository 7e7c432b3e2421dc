import OmniagentPlus.StateLedger.InboxPages
import OmniagentPlus.WorktreeLeasing.CoordinationTables

/-! The scope filter of the local inbox against the overlap tests of leases and of the database:
they differ by the slashes at the end of a selector. -/
namespace OmniagentPlus.WorktreeLeasing
open OmniagentPlus.Foundation OmniagentPlus.CoreContracts OmniagentPlus.StateLedger

section Slashes
variable {t u : Text}

lemma trimSlashes_append (t u : Text) :
    trimSlashes (t ++ u) = if trimSlashes u = [] then trimSlashes t else t ++ trimSlashes u := by
  induction u using List.reverseRecOn with
  | nil => simp [trimSlashes]
  | append_singleton u v ih =>
    rw [← List.append_assoc]
    by_cases hv : v = slash
    · have hdrop : ∀ s : Text, trimSlashes (s ++ [v]) = trimSlashes s := fun s =>
        List.rdropWhile_concat_pos _ _ _ (by simp [hv])
      rw [hdrop, hdrop, ih]
    · have hkeep : ∀ s : Text, trimSlashes (s ++ [v]) = s ++ [v] := fun s =>
        List.rdropWhile_concat_neg _ _ _ (by simpa using hv)
      rw [hkeep, hkeep, if_neg (by simp), List.append_assoc]

/-- How many slashes a selector ends in. -/
def endSlashes (t : Text) : ℕ := (t.rtakeWhile (· == slash)).length

/-- How many slashes stand in a selector after the path that it starts with. -/
def slashesAfter (path t : Text) : ℕ := ((t.drop path.length).takeWhile (· == slash)).length

/-- A text is what is left of it and then slashes. -/
lemma trimSlashes_replicate (t : Text) : t = trimSlashes t ++ List.replicate (endSlashes t) slash := by
  have hend : t.rtakeWhile (· == slash) = List.replicate (endSlashes t) slash :=
    List.eq_replicate_iff.mpr ⟨rfl,fun v hv => by simpa using List.mem_rtakeWhile_imp hv⟩
  rw [← hend]
  exact (List.rdropWhile_append_rtakeWhile ..).symm

/-- A text starts with a path and more slashes than so many, just where more stand after the path. -/
lemma starts_iff (path : Text) (n : ℕ) (t : Text) :
    (path ++ List.replicate n slash ++ [slash]) <+: t ↔ path <+: t ∧ n < slashesAfter path t := by
  rw [List.append_assoc, ← List.replicate_succ']
  constructor
  · intro h
    obtain ⟨rest,rfl⟩ := h
    refine ⟨⟨_,(List.append_assoc ..).symm⟩,?_⟩
    rw [slashesAfter, List.append_assoc, List.drop_left, List.takeWhile_append_of_pos (by simp), List.length_append,
      List.length_replicate]
    omega
  · rintro ⟨⟨rest,rfl⟩,h⟩
    rw [slashesAfter, List.drop_left] at h
    have hslashes : rest.takeWhile (· == slash) = List.replicate (rest.takeWhile (· == slash)).length slash :=
      List.eq_replicate_iff.mpr ⟨rfl,fun v hv => by simpa using List.mem_takeWhile_imp hv⟩
    refine (List.prefix_append_right_inj path).mpr (List.IsPrefix.trans ?_ (List.takeWhile_prefix (· == slash)))
    rw [hslashes]
    exact List.prefix_replicate_iff.mpr ⟨by rw [List.length_replicate]; exact h,by simp⟩

/-- Where a selector as it is written contains another one, it does so without the slashes at the end. -/
lemma trimmed_of_written (h : (u ++ [slash]) <+: t) :
    trimSlashes t = trimSlashes u ∨ (trimSlashes u ++ [slash]) <+: trimSlashes t := by
  obtain ⟨rest,rfl⟩ := h
  have hn := trimSlashes_replicate u
  generalize endSlashes u = n at hn
  rw [trimSlashes_append (u ++ [slash]) rest]
  split_ifs with hrest
  · left
    rw [trimSlashes_append u [slash], if_pos (by simp [trimSlashes])]
  · right
    generalize trimSlashes u = path at hn
    subst hn
    have hslashes : slash :: List.replicate n slash = List.replicate n slash ++ [slash] := by
      rw [← List.replicate_succ, List.replicate_succ']
    refine ⟨List.replicate n slash ++ trimSlashes rest,?_⟩
    calc path ++ [slash] ++ (List.replicate n slash ++ trimSlashes rest)
        = path ++ (slash :: List.replicate n slash) ++ trimSlashes rest := by simp
      _ = path ++ List.replicate n slash ++ [slash] ++ trimSlashes rest := by simp [hslashes]

/-- Selectors that differ in slashes at the end overlap as they are written. -/
lemma written_of_trimSlashes_eq (h : trimSlashes t = trimSlashes u) :
    t = u ∨ (u ++ [slash]) <+: t ∨ (t ++ [slash]) <+: u := by
  have ht := trimSlashes_replicate t
  have hu := trimSlashes_replicate u
  rw [h] at ht
  generalize trimSlashes u = path at ht hu
  generalize endSlashes t = m at ht
  generalize endSlashes u = n at hu
  subst ht hu
  have hstarts : ∀ {i j : ℕ}, i < j →
      (path ++ List.replicate i slash ++ [slash]) <+: (path ++ List.replicate j slash) := by
    intro i j hlt
    rw [List.append_assoc, ← List.replicate_succ', List.prefix_append_right_inj]
    exact List.prefix_replicate_iff.mpr ⟨by rw [List.length_replicate]; exact hlt,by simp⟩
  obtain hlt | rfl | hlt := Nat.lt_trichotomy m n
  · exact Or.inr (Or.inr (hstarts hlt))
  · exact Or.inl rfl
  · exact Or.inr (Or.inl (hstarts hlt))

lemma eq_iff_endSlashes : t = u ↔ trimSlashes t = trimSlashes u ∧ endSlashes t = endSlashes u := by
  constructor
  · rintro rfl
    exact ⟨rfl,rfl⟩
  · rintro ⟨hpath,hend⟩
    rw [trimSlashes_replicate t, trimSlashes_replicate u, hpath, hend]

end Slashes

/-- Two selectors overlap, slashes at their ends apart. -/
def TrimmedOverlap (t u : Text) : Prop :=
  trimSlashes t = trimSlashes u ∨ (trimSlashes u ++ [slash]) <+: trimSlashes t ∨ (trimSlashes t ++ [slash]) <+: trimSlashes u

/-- They overlap as they are written: the same, or the one and a slash starts the other. -/
def WrittenOverlap (t u : Text) : Prop := t = u ∨ (u ++ [slash]) <+: t ∨ (t ++ [slash]) <+: u

/-- Slashes at the ends apart, the selector lies in `outer`, and more slashes stand there after `outer` than it ends in. -/
def FewerSlashes (outer t : Text) : Prop :=
  (trimSlashes outer ++ [slash]) <+: trimSlashes t ∧ endSlashes outer < slashesAfter (trimSlashes outer) t

/-- Two selectors are equal but for slashes at their ends, or the one that the other lies in does not end in too many. -/
def SpelledAlike (t u : Text) : Prop := trimSlashes t = trimSlashes u ∨ FewerSlashes u t ∨ FewerSlashes t u

/-- A selector starts with another one as it is written, which it lies in. -/
lemma fewerSlashes_of_written {t u : Text} (h : (u ++ [slash]) <+: t) :
    trimSlashes t = trimSlashes u ∨ FewerSlashes u t := by
  refine (trimmed_of_written h).imp_right fun hin => ⟨hin,?_⟩
  rw [trimSlashes_replicate u] at h
  exact ((starts_iff _ _ _).mp h).2

lemma written_of_fewerSlashes {t u : Text} (h : FewerSlashes u t) : (u ++ [slash]) <+: t := by
  have hstart : trimSlashes u <+: t :=
    (List.prefix_append _ [slash]).trans (h.1.trans ⟨_,(trimSlashes_replicate t).symm⟩)
  rw [trimSlashes_replicate u]
  exact (starts_iff _ _ _).mpr ⟨hstart,h.2⟩

/-- Whether two paths overlap as they are written is a matter of the slashes at their ends. -/
theorem writtenOverlap_iff {t u : Text} : WrittenOverlap t u ↔ SpelledAlike t u := by
  constructor
  · rintro (rfl | h | h)
    · exact Or.inl rfl
    · exact (fewerSlashes_of_written h).imp_right Or.inl
    · exact (fewerSlashes_of_written h).elim (fun heq => Or.inl heq.symm) fun hin => Or.inr (Or.inr hin)
  · rintro (heq | h | h)
    · exact written_of_trimSlashes_eq heq
    · exact Or.inr (Or.inl (written_of_fewerSlashes h))
    · exact Or.inr (Or.inr (written_of_fewerSlashes h))

lemma SpelledAlike.trimmed {t u : Text} (h : SpelledAlike t u) : TrimmedOverlap t u :=
  h.imp_right (Or.imp And.left And.left)

lemma inboxPathOverlaps_iff {t u : Text} : inboxPathOverlaps t u = true ↔ SpelledAlike t u := by
  rw [← writtenOverlap_iff, WrittenOverlap]
  simp only [inboxPathOverlaps, Bool.or_eq_true, beq_iff_eq, List.isPrefixOf_iff_prefix, or_assoc]

lemma pathOverlaps_trimmed_iff {t u : Text} : pathOverlaps (trimSlashes t) (trimSlashes u) = true ↔ TrimmedOverlap t u := by
  simp only [pathOverlaps, Bool.or_eq_true, beq_iff_eq, List.isPrefixOf_iff_prefix, TrimmedOverlap, or_assoc]

/-- Where two selectors meet once the slashes at their ends are dropped, two that meet end in slashes that do not
matter: a path that another one lies in ends in fewer than follow it there, and two symbols end in as many. -/
def SlashesAside (l r : LeaseScope) : Prop :=
  (l.granularity = .pathSet → r.granularity = .pathSet →
    (∃ t ∈ l.selector, ∃ u ∈ r.selector, TrimmedOverlap t u) → ∃ t ∈ l.selector, ∃ u ∈ r.selector, SpelledAlike t u) ∧
  (l.granularity = .symbol → r.granularity = .symbol →
    (∃ t ∈ l.selector, ∃ u ∈ r.selector, trimSlashes t = trimSlashes u) →
      ∃ t ∈ l.selector, ∃ u ∈ r.selector, trimSlashes t = trimSlashes u ∧ endSlashes t = endSlashes u)

section Scopes
variable {l r : LeaseScope}

/-- What the tests ask of two scopes, each by its own tests of paths and of symbols. -/
def OverlapBy (paths symbols : Text → Text → Prop) (l r : LeaseScope) : Prop :=
  (l.granularity = .repo ∨ r.granularity = .repo) ∨
  (l.granularity = .pathSet ∧ r.granularity = .pathSet ∧ ∃ t ∈ l.selector, ∃ u ∈ r.selector, paths t u) ∨
  (l.granularity = .symbol ∧ r.granularity = .symbol ∧ ∃ t ∈ l.selector, ∃ u ∈ r.selector, symbols t u)

lemma scopeMatches_iff : scopeMatches l (some r) = true ↔ OverlapBy SpelledAlike Eq l r := by
  obtain ⟨left,ts⟩ := l
  obtain ⟨right,us⟩ := r
  cases left <;> cases right <;>
    simp [scopeMatches, OverlapBy, selectorsIntersect, List.any_eq_true, inboxPathOverlaps_iff]

lemma coordinationScopeOverlaps_iff : coordinationScopeOverlaps l r = true ↔ OverlapBy TrimmedOverlap Eq l r := by
  obtain ⟨left,ts⟩ := l
  obtain ⟨right,us⟩ := r
  cases left <;> cases right <;>
    simp [coordinationScopeOverlaps, OverlapBy, TrimmedOverlap, List.any_eq_true, List.isPrefixOf_iff_prefix, or_assoc]

lemma any_normalized (test : Text → Text → Bool) (hl : l.allowed = true) (hr : r.allowed = true) :
    ((normalizeLeaseScope l).selector.any fun t => (normalizeLeaseScope r).selector.any (test t)) = true ↔
      ∃ t ∈ l.selector, ∃ u ∈ r.selector, test (trimSlashes t) (trimSlashes u) = true := by
  simp only [List.any_eq_true]
  constructor
  · intro h
    obtain ⟨t,ht,u,hu,htest⟩ := h
    obtain ⟨-,t,hmem,rfl⟩ := mem_normalizeSelector.mp ht
    obtain ⟨-,u,hmem',rfl⟩ := mem_normalizeSelector.mp hu
    exact ⟨t,hmem,u,hmem',htest⟩
  · intro h
    obtain ⟨t,ht,u,hu,htest⟩ := h
    exact ⟨_,trimSlashes_mem_normalizeSelector hl ht,_,trimSlashes_mem_normalizeSelector hr hu,htest⟩

lemma leaseScopesOverlap_iff (hl : l.allowed = true) (hr : r.allowed = true) :
    leaseScopesOverlap l r = true ↔ OverlapBy TrimmedOverlap (fun t u => trimSlashes t = trimSlashes u) l r := by
  have hpaths := any_normalized pathOverlaps hl hr
  have hsymbols := any_normalized (fun t u => t == u) hl hr
  simp only [pathOverlaps_trimmed_iff, beq_iff_eq] at hpaths hsymbols
  rw [OverlapBy, ← hpaths, ← hsymbols]
  have hgl : (normalizeLeaseScope l).granularity = l.granularity := rfl
  have hgr : (normalizeLeaseScope r).granularity = r.granularity := rfl
  rw [leaseScopesOverlap, hgl, hgr]
  generalize (normalizeLeaseScope l).selector = ts
  generalize (normalizeLeaseScope r).selector = us
  cases l.granularity <;> cases r.granularity <;> simp

/-- The filter says what the leases and the database say just where slashes at the ends stay aside. -/
theorem scopeMatches_agrees (hl : l.allowed = true) (hr : r.allowed = true) :
    ((scopeMatches l (some r) = true ↔ leaseScopesOverlap l r = true) ∧
      (scopeMatches l (some r) = true ↔ coordinationScopeOverlaps l r = true)) ↔ SlashesAside l r := by
  rw [scopeMatches_iff, leaseScopesOverlap_iff hl hr, coordinationScopeOverlaps_iff]
  have hpaths : (∃ t ∈ l.selector, ∃ u ∈ r.selector, SpelledAlike t u) →
      ∃ t ∈ l.selector, ∃ u ∈ r.selector, TrimmedOverlap t u := fun h => by
    obtain ⟨t,ht,u,hu,hover⟩ := h
    exact ⟨t,ht,u,hu,hover.trimmed⟩
  have hsymbols : (∃ t ∈ l.selector, ∃ u ∈ r.selector, t = u) →
      ∃ t ∈ l.selector, ∃ u ∈ r.selector, trimSlashes t = trimSlashes u := fun h => by
    obtain ⟨t,ht,u,hu,rfl⟩ := h
    exact ⟨t,ht,t,hu,rfl⟩
  unfold SlashesAside OverlapBy
  simp only [← eq_iff_endSlashes]
  generalize (∃ t ∈ l.selector, ∃ u ∈ r.selector, SpelledAlike t u) = written at hpaths ⊢
  generalize (∃ t ∈ l.selector, ∃ u ∈ r.selector, TrimmedOverlap t u) = trimmed at hpaths ⊢
  generalize (∃ t ∈ l.selector, ∃ u ∈ r.selector, t = u) = same at hsymbols ⊢
  generalize (∃ t ∈ l.selector, ∃ u ∈ r.selector, trimSlashes t = trimSlashes u) = alike at hsymbols ⊢
  generalize l.granularity = left
  generalize r.granularity = right
  have hfrom : ∀ {p q : Prop}, (p → q) → ((p ↔ q) ↔ (q → p)) := fun h => ⟨Iff.mpr,fun h' => ⟨h,h'⟩⟩
  cases left <;> cases right <;> simp [hfrom hpaths, hfrom hsymbols]

end Scopes

section Listed
variable {ν : Type}

/-- The page is past its cursor at the message, and has room for it whatever the filter shows before it. -/
def PageReaches (file : Option (LocalCoordinationInboxState ν)) (page : CoordinationPage) (now : ℤ) (m : MessageFields ν) :
    Prop :=
  ∀ limit cursor, validateCoordinationPage page = some (limit,cursor) →
    cursor.all (fun c => compareCoordinationTuple (messageTuple m) c == .gt) = true ∧
      (((inboxMessages file).map listed).filter fun other => unexpired now other &&
        cursor.all (fun c => compareCoordinationTuple (messageTuple other) c == .gt) &&
          compareCoordinationTuple (messageTuple other) (messageTuple m) != .gt).length ≤ limit

variable [JsNumber ν] {isDatetime : Text → Bool} {file : Option (LocalCoordinationInboxState ν)}

/-- A page that reaches a live message of the type lists it just where the scopes match. -/
lemma listed_iff {query : CoordinationMessageQuery} {clock : ℤ} {ms : List (MessageFields ν)} {m : MessageFields ν}
    (hlist : list isDatetime file query (some clock) = .ok ms) (hm : m ∈ inboxMessages file)
    (hlive : unexpired (toContractTimestamp clock) (listed m) = true) (htype : query.type.all (· == m.type) = true)
    (hreaches : PageReaches file query.page (toContractTimestamp clock) m) :
    listed m ∈ ms ↔ scopeMatches m.scope query.scope = true := by
  obtain ⟨limit,cursor,state,hpage,hread,rfl⟩ := list_ok hlist
  obtain ⟨hpast,hroom⟩ := hreaches limit cursor hpage
  constructor
  · intro h
    have hmatches := List.mem_mergeSort.mp (List.mem_filter.mp (List.mem_of_mem_take h)).1
    have hquery := (List.mem_filter.mp hmatches).2
    rw [matchesQuery, Bool.and_eq_true] at hquery
    exact hquery.2
  · intro h
    have hmatching : listed m ∈ matchingMessages file query (toContractTimestamp clock) := by
      refine List.mem_filter.mpr ⟨List.mem_map_of_mem hm,?_⟩
      rw [matchesQuery, hlive]
      exact Bool.and_eq_true_iff.mpr ⟨Bool.and_eq_true_iff.mpr ⟨rfl,htype⟩,h⟩
    have horder : InOrder compareCoordinationTuple messageTuple (orderedMessages file query (toContractTimestamp clock)) :=
      inOrder_mergeSort compareCoordinationTuple messageTuple _
    refine mem_take_of_room compareCoordinationTuple messageTuple (horder.filter _)
      (List.mem_filter.mpr ⟨List.mem_mergeSort.mpr hmatching,by rw [messageTuple_listed]; exact hpast⟩) (le_trans ?_ hroom)
    have hperm : (orderedMessages file query (toContractTimestamp clock)).Perm
        (matchingMessages file query (toContractTimestamp clock)) := List.mergeSort_perm _ _
    rw [messageTuple_listed, List.filter_filter, (hperm.filter _).length_eq, matchingMessages, List.filter_filter]
    refine (List.monotone_filter_right _ fun other hother => ?_).length_le
    simp only [Bool.and_eq_true, matchesQuery] at hother ⊢
    exact ⟨⟨hother.2.1.1,hother.1.2⟩,hother.1.1⟩

/-- Which messages a filter lists is what the leases and the database say, just where slashes at the
ends stay aside. -/
theorem listed_agrees_iff {query : CoordinationMessageQuery} {r : LeaseScope} (hscope : query.scope = some r)
    (hr : r.allowed = true) {clock : ℤ} {ms : List (MessageFields ν)}
    (hlist : list isDatetime file query (some clock) = .ok ms) {m : MessageFields ν} (hm : m ∈ inboxMessages file)
    (hlive : unexpired (toContractTimestamp clock) (listed m) = true) (htype : query.type.all (· == m.type) = true)
    (hreaches : PageReaches file query.page (toContractTimestamp clock) m) :
    ((listed m ∈ ms ↔ leaseScopesOverlap m.scope r = true) ∧ (listed m ∈ ms ↔ coordinationScopeOverlaps m.scope r = true)) ↔
      SlashesAside m.scope r := by
  have hl : m.scope.allowed = true := by
    obtain ⟨_,_,_,_,hread,_⟩ := list_ok hlist
    have hallowed := allowed_of_read hread hm
    simp only [MessageFields.allowed, Bool.and_eq_true] at hallowed
    exact hallowed.1.1.1.1.2
  rw [listed_iff hlist hm hlive htype hreaches, hscope]
  exact scopeMatches_agrees hl hr

end Listed

/-- A handoff of one path. -/
def handoffOf (path : String) : MessageFields Unit :=
  ⟨Text.of "msg:1",.handoff,Text.of "agent",.contract 1000,⟨.pathSet,[Text.of path]⟩,none,none,none,none⟩

def inboxOf (path : String) : Option (LocalCoordinationInboxState Unit) := some ⟨.contract 1000,[handoffOf path]⟩

def queryOf (path : String) : CoordinationMessageQuery := ⟨some ⟨.pathSet,[Text.of path]⟩,none,⟨none,none⟩⟩

/-- What the query for a path lists of it. -/
def handoffsFor (path : String) : List (MessageFields Unit) :=
  (list (fun _ => false) (inboxOf "src/a") (queryOf path) (some 1000000)).toOption.getD []

/-- A directory as a filter, and a message on a file in it. -/
theorem handoff_listed :
    (listed (handoffOf "src/a") ∈ handoffsFor "src" ↔
      leaseScopesOverlap (handoffOf "src/a").scope ⟨.pathSet,[Text.of "src"]⟩ = true) ∧
    (listed (handoffOf "src/a") ∈ handoffsFor "src" ↔
      coordinationScopeOverlaps (handoffOf "src/a").scope ⟨.pathSet,[Text.of "src"]⟩ = true) := by
  have hread : readInbox (fun _ => false) (inboxOf "src/a") (toContractTimestamp 1000000) =
      .ok ⟨.contract 1000,[handoffOf "src/a"]⟩ := readInbox_some rfl (by decide +kernel) _
  have hlist : list (fun _ => false) (inboxOf "src/a") (queryOf "src") (some 1000000) = .ok (handoffsFor "src") := by
    rw [handoffsFor, list_eq hread rfl]
    rfl
  refine (listed_agrees_iff rfl (by decide +kernel) hlist (List.mem_singleton_self _) (by decide +kernel) rfl ?_).mpr
    ⟨fun _ _ _ => ?_,fun hsymbol => ?_⟩
  · intro limit cursor h
    cases h
    exact ⟨rfl,by decide +kernel⟩
  · exact ⟨_,List.mem_singleton_self _,_,List.mem_singleton_self _,inboxPathOverlaps_iff.mp (by decide +kernel)⟩
  · cases hsymbol

/-- A directory with its slash as a filter hides the message from whom its leases and the database show it. -/
theorem handoff_hidden : (handoffOf "src/a").scope.allowed = true ∧
    LeaseScope.allowed ⟨.pathSet,[Text.of "src/"]⟩ = true ∧
    (list (fun _ => false) (inboxOf "src/a") (queryOf "src/") (some 1000000)).toOption.isSome = true ∧
    (handoffsFor "src/").isEmpty = true ∧
    leaseScopesOverlap (handoffOf "src/a").scope ⟨.pathSet,[Text.of "src/"]⟩ = true ∧
    coordinationScopeOverlaps (handoffOf "src/a").scope ⟨.pathSet,[Text.of "src/"]⟩ = true := by
  decide +kernel

end OmniagentPlus.WorktreeLeasing
