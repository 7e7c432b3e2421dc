import Mathlib.Data.Fintype.EquivFin
import OmniagentPlus.StateLedger.SnapshotRows

/-! The session tree of the control snapshot: what the root and the depth of a session are, by those of
its parent, where the chain of parents has no cycle. -/
namespace OmniagentPlus.StateLedger
open OmniagentPlus.Foundation OmniagentPlus.CoreContracts

section Ancestry
variable (lookup : String → Option AgentSession)

/-- The session that is so many parents up. -/
def ancestor : ℕ → AgentSession → Option AgentSession
  | 0, session => some session
  | n + 1, session => (truthy session.parentSessionId).bind fun parent => (lookup parent).bind (ancestor n)

/-- No session comes twice in the chain of parents. -/
def Acyclic (session : AgentSession) : Prop :=
  ∀ m n a b, ancestor lookup m session = some a → ancestor lookup n session = some b → a.id = b.id → m = n

/-- The chain of parents ends in a session without a parent. -/
def Rooted (session : AgentSession) : Prop :=
  ∃ n a, ancestor lookup n session = some a ∧ truthy a.parentSessionId = none

variable {lookup} {child parent : AgentSession}

theorem ancestor_succ (hparent : truthy child.parentSessionId = some parent.id) (hlookup : lookup parent.id = some parent)
    (n : ℕ) : ancestor lookup (n + 1) child = ancestor lookup n parent := by
  simp [ancestor, hparent, hlookup]

theorem Acyclic.up (h : Acyclic lookup child) (hparent : truthy child.parentSessionId = some parent.id)
    (hlookup : lookup parent.id = some parent) : Acyclic lookup parent := by
  intro m n a b ha hb hab
  rw [← ancestor_succ hparent hlookup] at ha hb
  have := h _ _ a b ha hb hab
  omega

theorem rooted_parent (hparent : truthy child.parentSessionId = some parent.id) (hlookup : lookup parent.id = some parent) :
    Rooted lookup child ↔ Rooted lookup parent := by
  constructor
  · rintro ⟨n,a,ha,hroot⟩
    cases n with
    | zero =>
      cases ha
      rw [hparent] at hroot
      cases hroot
    | succ n => exact ⟨n,a,by rw [← ancestor_succ hparent hlookup]; exact ha,hroot⟩
  · rintro ⟨n,a,ha,hroot⟩
    exact ⟨n + 1,a,by rw [ancestor_succ hparent hlookup]; exact ha,hroot⟩

end Ancestry

section Walk
variable {sessions : Dictionary String AgentSession}

/-- No session of the chain has been seen. -/
def Unseen (sessions : Dictionary String AgentSession) (seen : Finset String) (session : AgentSession) : Prop :=
  ∀ n a, ancestor sessions.get? n session = some a → a.id ∉ seen

theorem Unseen.up {seen : Finset String} {child parent : AgentSession} (hseen : Unseen sessions seen child)
    (hacyclic : Acyclic sessions.get? child) (hparent : truthy child.parentSessionId = some parent.id)
    (hlookup : sessions.get? parent.id = some parent) : Unseen sessions (insert child.id seen) parent := by
  intro n a ha
  rw [← ancestor_succ hparent hlookup] at ha
  rw [Finset.mem_insert, not_or]
  refine ⟨fun hid => ?_,hseen _ a ha⟩
  have := hacyclic (n + 1) 0 a child ha rfl hid
  omega

/-- What has been seen does not matter where nothing of it comes again. -/
theorem walkParents_unseen (hk : Keyed sessions) {fuel : ℕ} {seen seen' : Finset String} {steps : ℕ} {session : AgentSession}
    (hacyclic : Acyclic sessions.get? session) (h : Unseen sessions seen session) (h' : Unseen sessions seen' session) :
    walkParents sessions fuel seen steps (some session) = walkParents sessions fuel seen' steps (some session) := by
  induction fuel generalizing seen seen' steps session with
  | zero => rfl
  | succ fuel ih =>
    rw [walkParents, walkParents]
    cases hparent : truthy session.parentSessionId with
    | none => rfl
    | some parentId =>
      dsimp only
      rw [if_neg (h 0 session rfl), if_neg (h' 0 session rfl)]
      cases hlookup : sessions.get? parentId with
      | none => cases fuel <;> rfl
      | some parent =>
        obtain rfl := hk parentId parent hlookup
        exact ih (hacyclic.up hparent hlookup) (h.up hacyclic hparent hlookup) (h'.up hacyclic hparent hlookup)

/-- The steps taken before are added. -/
theorem walkParents_steps (fuel : ℕ) (seen : Finset String) (steps : ℕ) (current : Option AgentSession) :
    walkParents sessions fuel seen (steps + 1) current =
      ((walkParents sessions fuel seen steps current).1 + 1,(walkParents sessions fuel seen steps current).2) := by
  induction fuel generalizing seen steps current with
  | zero => rfl
  | succ fuel ih =>
    cases current with
    | none => rfl
    | some session =>
      rw [walkParents, walkParents]
      cases truthy session.parentSessionId with
      | none => rfl
      | some parent =>
        dsimp only
        split_ifs
        · rfl
        · exact ih _ _ _

/-- The walk from a session is one step longer than the one from its parent and ends where that does. -/
theorem walkParents_child (hk : Keyed sessions) {child parent : AgentSession} (hchild : sessions.get? child.id = some child)
    (hparent : truthy child.parentSessionId = some parent.id) (hlookup : sessions.get? parent.id = some parent)
    (hacyclic : Acyclic sessions.get? child) :
    walkParents sessions (walkFuel sessions) ∅ 0 (some child) =
      ((walkParents sessions (walkFuel sessions) ∅ 0 (some parent)).1 + 1,
        (walkParents sessions (walkFuel sessions) ∅ 0 (some parent)).2) := by
  have hheld : Held sessions (some child) := by
    rintro q ⟨⟩
    exact hchild
  have hnone : Unseen sessions ∅ child := fun _ _ _ => Finset.notMem_empty _
  have hnone' : Unseen sessions ∅ parent := fun _ _ _ => Finset.notMem_empty _
  rw [← walkParents_eq_of_le hk hheld (Nat.le_succ _), walkParents, hparent]
  dsimp only
  rw [if_neg (Finset.notMem_empty _), hlookup, walkParents_unseen hk (hacyclic.up hparent hlookup)
    (hnone.up hacyclic hparent hlookup) hnone', walkParents_steps]

/-- The walk ends in the session without a parent. -/
theorem walkParents_rooted (hk : Keyed sessions) {n fuel steps : ℕ} {seen : Finset String} {session top : AgentSession}
    (hacyclic : Acyclic sessions.get? session) (hseen : Unseen sessions seen session)
    (htop : ancestor sessions.get? n session = some top) (hroot : truthy top.parentSessionId = none) (hfuel : n < fuel) :
    (walkParents sessions fuel seen steps (some session)).2 = some top := by
  induction n generalizing fuel seen steps session with
  | zero =>
    cases htop
    obtain ⟨fuel,rfl⟩ : ∃ f, fuel = f + 1 := ⟨fuel - 1,by omega⟩
    rw [walkParents, hroot]
  | succ n ih =>
    obtain ⟨fuel,rfl⟩ : ∃ f, fuel = f + 1 := ⟨fuel - 1,by omega⟩
    obtain ⟨parentId,hparent,hnext⟩ := Option.bind_eq_some_iff.mp htop
    obtain ⟨parent,hlookup,hup⟩ := Option.bind_eq_some_iff.mp hnext
    obtain rfl := hk parentId parent hlookup
    rw [walkParents, hparent]
    dsimp only
    rw [if_neg (hseen 0 session rfl), hlookup]
    exact ih (hacyclic.up hparent hlookup) (hseen.up hacyclic hparent hlookup) hup (by omega)

/-- The walk leaves the sessions where the chain does. -/
theorem walkParents_missing (hk : Keyed sessions) {n fuel steps : ℕ} {seen : Finset String} {session : AgentSession}
    (hacyclic : Acyclic sessions.get? session) (hseen : Unseen sessions seen session)
    (hmissing : ancestor sessions.get? n session = none) (hroot : ¬Rooted sessions.get? session) (hfuel : n < fuel) :
    (walkParents sessions fuel seen steps (some session)).2 = none := by
  induction n generalizing fuel seen steps session with
  | zero => cases hmissing
  | succ n ih =>
    obtain ⟨fuel,rfl⟩ : ∃ f, fuel = f + 1 := ⟨fuel - 1,by omega⟩
    cases hparent : truthy session.parentSessionId with
    | none => exact absurd ⟨0,session,rfl,hparent⟩ hroot
    | some parentId =>
      rw [walkParents, hparent]
      dsimp only
      rw [if_neg (hseen 0 session rfl)]
      cases hlookup : sessions.get? parentId with
      | none => cases fuel <;> rfl
      | some parent =>
        obtain rfl := hk parentId parent hlookup
        rw [ancestor_succ hparent hlookup] at hmissing
        rw [rooted_parent hparent hlookup] at hroot
        exact ih (hacyclic.up hparent hlookup) (hseen.up hacyclic hparent hlookup) hmissing hroot (by omega)

theorem ancestor_held (hk : Keyed sessions) {n : ℕ} {session a : AgentSession}
    (hsession : sessions.get? session.id = some session) (ha : ancestor sessions.get? n session = some a) :
    sessions.get? a.id = some a := by
  induction n generalizing session with
  | zero =>
    cases ha
    exact hsession
  | succ n ih =>
    obtain ⟨parentId,hparent,hnext⟩ := Option.bind_eq_some_iff.mp ha
    obtain ⟨parent,hlookup,hup⟩ := Option.bind_eq_some_iff.mp hnext
    obtain rfl := hk parentId parent hlookup
    exact ih hlookup hup

/-- A chain without a cycle ends, as there are finitely many sessions. -/
theorem Acyclic.missing (hk : Keyed sessions) {session : AgentSession} (h : Acyclic sessions.get? session)
    (hsession : sessions.get? session.id = some session) : ∃ n, ancestor sessions.get? n session = none := by
  by_contra hall
  have hsome : ∀ n, ∃ a, ancestor sessions.get? n session = some a := by
    intro n
    refine Option.ne_none_iff_exists'.mp fun hnone => hall ⟨n,hnone⟩
  choose chain hchain using hsome
  have hmem : ∀ n, (chain n).id ∈ sessions.keys.toFinset := by
    intro n
    rw [List.mem_toFinset, Dictionary.mem_keys_iff, ancestor_held hk hsession (hchain n)]
    rfl
  refine not_injective_infinite_finite (fun n => (⟨(chain n).id,hmem n⟩ : sessions.keys.toFinset)) fun m n hmn => ?_
  exact h m n _ _ (hchain m) (hchain n) (congrArg Subtype.val hmn)

/-- Where the walk ends, with the fuel that it is given. -/
theorem walkParents_end (hk : Keyed sessions) {session : AgentSession} (hsession : sessions.get? session.id = some session)
    (hacyclic : Acyclic sessions.get? session) :
    (walkParents sessions (walkFuel sessions) ∅ 0 (some session)).2.isSome = true ↔ Rooted sessions.get? session := by
  have hheld : Held sessions (some session) := by
    rintro q ⟨⟩
    exact hsession
  have hnone : Unseen sessions ∅ session := fun _ _ _ => Finset.notMem_empty _
  by_cases hroot : Rooted sessions.get? session
  · refine iff_of_true ?_ hroot
    obtain ⟨n,top,htop,htruthy⟩ := hroot
    rw [← walkParents_eq_of_le hk hheld (Nat.le_add_right _ (n + 1)),
      walkParents_rooted hk hacyclic hnone htop htruthy (by omega)]
    rfl
  · refine iff_of_false ?_ hroot
    obtain ⟨n,hmissing⟩ := hacyclic.missing hk hsession
    rw [← walkParents_eq_of_le hk hheld (Nat.le_add_right _ (n + 1)),
      walkParents_missing hk hacyclic hnone hmissing hroot (by omega)]
    simp

theorem sessionRootId_eq {session : AgentSession} (h : session.rootSessionId = none) :
    sessionRootId session sessions =
      ((walkParents sessions (walkFuel sessions) ∅ 0 (some session)).2.map (·.id)).getD session.id := by
  rw [sessionRootId, h]
  rfl

/-- A session whose chain of parents leaves the sessions is its own root. -/
theorem sessionRootId_missing (hk : Keyed sessions) {session : AgentSession}
    (hsession : sessions.get? session.id = some session) (hacyclic : Acyclic sessions.get? session)
    (hdeclared : session.rootSessionId = none) (h : ¬Rooted sessions.get? session) :
    sessionRootId session sessions = session.id := by
  have hend := (walkParents_end hk hsession hacyclic).not.mpr h
  rw [Option.not_isSome_iff_eq_none] at hend
  rw [sessionRootId_eq hdeclared, hend]
  rfl

end Walk

section Tree
variable {records : List StateLedgerEntry}

/-- A recorded session has an id. -/
theorem latestSession_id_ne (ledger : Ledger) {session : AgentSession}
    (h : latestSession ledger.records session.id = some session) : session.id ≠ "" := by
  obtain ⟨r,hr,hp⟩ := Option.bind_eq_some_iff.mp h
  have hmem : r ∈ ledger.records := (Dictionary.mem_of_get?_indexBy hr).1
  have hpayload : r.payload = .session session := by
    unfold sessionPayload at hp
    split at hp
    · cases hp
      assumption
    · cases hp
  have hscope := (normalizeLedgerScope_scope (ledger.normalized r hmem)).2.1 session.id (by rw [hpayload]; rfl)
  intro hempty
  have hallowed := ledger.allowed r hmem
  rw [hempty] at hscope
  simp [StateLedgerEntry.envelopeAllowed, hscope] at hallowed

variable {ν : Type} [JsNumber ν] {isDatetime : Text → Bool} {localeCompare : String → String → Ordering}

/-- Where the schema accepts the snapshot, its tree has a node for a session and one for its parent, which is one level
higher and has the same root if the chain of parents ends in a recorded session; each is its own root if the chain
leaves the ledger. -/
theorem sessionTree_coherent (othersPass : List StateLedgerEntry → Bool) (ledger : Ledger)
    {child parent : AgentSession} {snapshot : UiControlSnapshot Text}
    (hchild : latestSession ledger.records child.id = some child)
    (hparent : latestSession ledger.records parent.id = some parent) (hnamed : child.parentSessionId = some parent.id)
    (hacyclic : Acyclic (latestSession ledger.records) child) (hroots : child.rootSessionId = none ∧ parent.rootSessionId = none)
    (hbuild : buildUiControlSnapshot ν isDatetime othersPass localeCompare ledger.records = some snapshot) :
    ∃ node ∈ snapshot.sessionTree, ∃ above ∈ snapshot.sessionTree,
      nodeRow ν isDatetime localeCompare ledger.records child = some node ∧
      nodeRow ν isDatetime localeCompare ledger.records parent = some above ∧ node.depth = above.depth + 1 ∧
      (Rooted (latestSession ledger.records) child → node.rootSessionId = above.rootSessionId) ∧
      (¬Rooted (latestSession ledger.records) child →
        node.rootSessionId = (Text.of child.id).trim ∧ above.rootSessionId = (Text.of parent.id).trim) := by
  have horder := ledger.increasing
  have hrows := buildUiControlSnapshot_rows horder hbuild
  obtain ⟨node,hnode⟩ := hrows.shown child hchild
  obtain ⟨above,habove⟩ := hrows.shown parent hparent
  obtain ⟨-,hroot,hdepth,-⟩ := nodeRow_eq horder hchild hnode
  obtain ⟨-,hroot',hdepth',-⟩ := nodeRow_eq horder hparent habove
  refine ⟨node,(hrows.nodes node).mpr ⟨child,hchild,hnode⟩,above,(hrows.nodes above).mpr ⟨parent,hparent,habove⟩,
    hnode,habove,?_⟩
  have hlookup : (sessionsById ledger.records).get? = latestSession ledger.records :=
    funext fun id => get?_sessionsById horder id
  have hkeyed := keyed_sessionsById horder
  rw [← hlookup] at hchild hparent hacyclic ⊢
  have htruthy : truthy child.parentSessionId = some parent.id := by
    rw [hnamed, truthy, Option.filter_eq_some_iff]
    rw [hlookup] at hparent
    exact ⟨rfl,decide_eq_true (latestSession_id_ne ledger hparent)⟩
  have hwalk := walkParents_child hkeyed hchild htruthy hparent hacyclic
  have hparentAcyclic := hacyclic.up htruthy hparent
  rw [hroot, hroot']
  refine ⟨?_,fun hrooted => ?_,fun hmissing => ⟨?_,?_⟩⟩
  · rw [hdepth, hdepth', sessionDepth, sessionDepth, hwalk]
  · have hend := (walkParents_end hkeyed hchild hacyclic).mpr hrooted
    rw [hwalk] at hend
    obtain ⟨top,htop⟩ := Option.isSome_iff_exists.mp hend
    rw [sessionRootId_eq hroots.1, sessionRootId_eq hroots.2, hwalk, htop]
    rfl
  · rw [sessionRootId_missing hkeyed hchild hacyclic hroots.1 hmissing]
  · rw [sessionRootId_missing hkeyed hparent hparentAcyclic hroots.2 fun h => hmissing ((rooted_parent htruthy hparent).mpr h)]

end Tree

section Families

def familyMember (id : String) (parent : Option String) : AgentSession :=
  ⟨id,"title",.idle,sampleInstant,parent,none,none,none,""⟩

/-- A session and its parent, which has none. -/
def familyLedger : Ledger where
  records := [memberRecord 1 (familyMember "parent" none),memberRecord 2 (familyMember "child" (some "parent"))]
  increasing := by decide
  allowed := by decide
  normalized := by decide

/-- A session and its parent, whose own parent is in no record. -/
def orphanedLedger : Ledger where
  records := [memberRecord 1 (familyMember "parent" (some "gone")),memberRecord 2 (familyMember "child" (some "parent"))]
  increasing := by decide
  allowed := by decide
  normalized := by decide

theorem acyclic_pair {lookup : String → Option AgentSession} {child parent : AgentSession}
    (hnamed : truthy child.parentSessionId = some parent.id) (hlookup : lookup parent.id = some parent)
    (hne : child.id ≠ parent.id) (hend : ∀ n, ancestor lookup (n + 1) parent = none) : Acyclic lookup child := by
  have hchain : ∀ n a, ancestor lookup n child = some a → n = 0 ∧ a = child ∨ n = 1 ∧ a = parent := by
    intro n a ha
    cases n with
    | zero =>
      cases ha
      exact .inl ⟨rfl,rfl⟩
    | succ n =>
      rw [ancestor_succ hnamed hlookup] at ha
      cases n with
      | zero =>
        cases ha
        exact .inr ⟨rfl,rfl⟩
      | succ n =>
        rw [hend] at ha
        cases ha
  intro m n a b ha hb hab
  rcases hchain m a ha with ⟨rfl,rfl⟩ | ⟨rfl,rfl⟩ <;> rcases hchain n b hb with ⟨rfl,rfl⟩ | ⟨rfl,rfl⟩
  · rfl
  · exact absurd hab hne
  · exact absurd hab.symm hne
  · rfl

/-- The parent's parent being in no record, each of the two is its own root. -/
theorem orphaned_roots : latestSession orphanedLedger.records "child" = some (familyMember "child" (some "parent")) ∧
    latestSession orphanedLedger.records "parent" = some (familyMember "parent" (some "gone")) ∧
    Acyclic (latestSession orphanedLedger.records) (familyMember "child" (some "parent")) ∧
    ∃ snapshot, buildUiControlSnapshot ℤ isSampleInstant (fun _ => true) compare orphanedLedger.records = some snapshot ∧
      ∃ node ∈ snapshot.sessionTree, ∃ above ∈ snapshot.sessionTree, node.sessionId = Text.of "child" ∧
        above.sessionId = Text.of "parent" ∧ node.rootSessionId ≠ above.rootSessionId := by
  have hchild : latestSession orphanedLedger.records "child" = some (familyMember "child" (some "parent")) := by decide +kernel
  have hparent : latestSession orphanedLedger.records "parent" = some (familyMember "parent" (some "gone")) := by
    decide +kernel
  have hgone : latestSession orphanedLedger.records "gone" = none := by decide +kernel
  have hnamed : truthy (familyMember "child" (some "parent")).parentSessionId =
      some (familyMember "parent" (some "gone")).id := by decide
  have hmissing : truthy (familyMember "parent" (some "gone")).parentSessionId = some "gone" := by decide
  have hend : ∀ n, ancestor (latestSession orphanedLedger.records) (n + 1) (familyMember "parent" (some "gone")) = none := by
    intro n
    rw [ancestor, hmissing, Option.bind_some, hgone]
    rfl
  have hacyclic := acyclic_pair hnamed hparent (by decide) hend
  have hunrooted : ¬Rooted (latestSession orphanedLedger.records) (familyMember "parent" (some "gone")) := by
    rintro ⟨n,a,ha,hroot⟩
    cases n with
    | zero =>
      cases ha
      rw [hmissing] at hroot
      cases hroot
    | succ n =>
      rw [hend] at ha
      cases ha
  have horder := orphanedLedger.increasing
  have hlookup : (sessionsById orphanedLedger.records).get? = latestSession orphanedLedger.records :=
    funext fun id => get?_sessionsById horder id
  have hkeyed := keyed_sessionsById horder
  obtain ⟨snapshot,hbuild⟩ : ∃ snapshot, buildUiControlSnapshot ℤ isSampleInstant (fun _ => true) compare
    orphanedLedger.records = some snapshot := exists_snapshot horder rfl (by decide +kernel)
  have hrows := buildUiControlSnapshot_rows horder hbuild
  have hheld : latestSession orphanedLedger.records (familyMember "child" (some "parent")).id =
      some (familyMember "child" (some "parent")) := hchild
  have hheld' : latestSession orphanedLedger.records (familyMember "parent" (some "gone")).id =
      some (familyMember "parent" (some "gone")) := hparent
  obtain ⟨node,hnode⟩ := hrows.shown _ hheld
  obtain ⟨above,habove⟩ := hrows.shown _ hheld'
  obtain ⟨hid,hroot,-,-⟩ := nodeRow_eq horder hheld hnode
  obtain ⟨hid',hroot',-,-⟩ := nodeRow_eq horder hheld' habove
  refine ⟨hchild,hparent,hacyclic,snapshot,hbuild,node,(hrows.nodes node).mpr ⟨_,hheld,hnode⟩,above,
    (hrows.nodes above).mpr ⟨_,hheld',habove⟩,?_,?_,?_⟩
  · rw [hid]
    decide +kernel
  · rw [hid']
    decide +kernel
  · rw [hroot, hroot', sessionRootId_missing hkeyed (hlookup ▸ hchild) (hlookup ▸ hacyclic) rfl
      (hlookup ▸ fun h => hunrooted ((rooted_parent hnamed hparent).mp h)),
      sessionRootId_missing hkeyed (hlookup ▸ hparent) (hlookup ▸ hacyclic.up hnamed hparent) rfl (hlookup ▸ hunrooted)]
    decide +kernel

theorem sessionTree_coherent_family : ∃ snapshot,
    buildUiControlSnapshot ℤ isSampleInstant (fun _ => true) compare familyLedger.records = some snapshot ∧
      ∃ node ∈ snapshot.sessionTree, ∃ above ∈ snapshot.sessionTree, node.sessionId = Text.of "child" ∧
        above.sessionId = Text.of "parent" ∧ node.depth = above.depth + 1 ∧ node.rootSessionId = above.rootSessionId := by
  have hchild : latestSession familyLedger.records (familyMember "child" (some "parent")).id =
      some (familyMember "child" (some "parent")) := by decide +kernel
  have hparent : latestSession familyLedger.records (familyMember "parent" none).id = some (familyMember "parent" none) := by
    decide +kernel
  have hnamed : truthy (familyMember "child" (some "parent")).parentSessionId = some (familyMember "parent" none).id := by decide
  have hacyclic := acyclic_pair hnamed hparent (by decide) fun n => rfl
  have hrooted : Rooted (latestSession familyLedger.records) (familyMember "child" (some "parent")) :=
    (rooted_parent hnamed hparent).mpr ⟨0,_,rfl,rfl⟩
  have horder := familyLedger.increasing
  obtain ⟨snapshot,hbuild⟩ : ∃ snapshot, buildUiControlSnapshot ℤ isSampleInstant (fun _ => true) compare
    familyLedger.records = some snapshot := exists_snapshot horder rfl (by decide +kernel)
  obtain ⟨node,hmem,above,hmem',hnode,habove,hdepth,hroot,-⟩ := sessionTree_coherent (fun _ => true) familyLedger hchild
    hparent rfl hacyclic ⟨rfl,rfl⟩ hbuild
  refine ⟨snapshot,hbuild,node,hmem,above,hmem',?_,?_,hdepth,hroot hrooted⟩
  · rw [(nodeRow_eq horder hchild hnode).1]
    decide +kernel
  · rw [(nodeRow_eq horder hparent habove).1]
    decide +kernel

end Families
end OmniagentPlus.StateLedger
