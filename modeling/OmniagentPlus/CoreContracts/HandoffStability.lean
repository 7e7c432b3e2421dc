import OmniagentPlus.CoreContracts.HandoffPacket

/-! A handoff packet that the schema gave is given again by it, exactly where the relative paths
among those that it rewrites were spelled so that the rewritten ones are rewritten no more. -/
namespace OmniagentPlus.CoreContracts
open OmniagentPlus.Foundation

section Scan
variable {ν : Type} [JsNumber ν] {isDatetime : Text → Bool}

theorem textLeaks_clean {allow : Bool} {text path path' : Text} (h : textLeaks false text path = []) :
    textLeaks allow text path' = [] := by
  simp only [textLeaks, List.append_eq_nil_iff, leakWhen_eq_nil, List.flatMap_eq_nil_iff, Bool.false_and,
    Bool.not_false, Bool.true_and] at h ⊢
  obtain ⟨⟨hrecovery,hdump⟩,hsecret⟩ := h
  refine ⟨⟨hrecovery,hdump⟩,fun rule hrule => ?_⟩
  rw [hsecret rule hrule, Bool.and_false]

/-- A value that is clean is so at any place, with more depth and where home directories are allowed. -/
theorem visit_clean {allow : Bool} {depth depth' : ℕ} {value : JsValue ν} {path path' : Text}
    (h : visit isDatetime false depth value path = []) (hdepth : depth ≤ depth') :
    visit isDatetime allow depth' value path' = [] := by
  induction depth generalizing depth' value path path' with
  | zero => cases h
  | succ depth ih =>
    obtain ⟨depth',rfl⟩ := Nat.exists_eq_add_of_le' (Nat.one_le_of_lt hdepth)
    have hle : depth ≤ depth' := by omega
    cases value with
    | undefined => rfl
    | null => rfl
    | bool b => rfl
    | foreign isRecord => cases h
    | number n =>
      simp only [visit, leakWhen_eq_nil] at h ⊢
      exact h
    | string text =>
      simp only [visit, List.append_eq_nil_iff] at h ⊢
      refine ⟨textLeaks_clean h.1,?_⟩
      cases hencoded : (encoded text : Option (JsValue ν)) with
      | none => rfl
      | some inner =>
        rw [hencoded] at h
        exact ih h.2 hle
    | array items hidden =>
      simp only [visit, List.flatMap_eq_nil_iff] at h ⊢
      intro item hitem
      have hclean := h item hitem
      cases hvalue : item.1 with
      | none => rfl
      | some inner =>
        rw [hvalue, Option.map_some, Option.getD_some] at hclean
        rw [Option.map_some, Option.getD_some]
        split_ifs at hclean ⊢
        exact ih hclean hle
    | object fields hidden =>
      simp only [visit, List.append_eq_nil_iff, List.flatMap_eq_nil_iff, fieldLeaks, leakWhen_eq_nil] at h ⊢
      exact ⟨h.1,fun field hfield => ⟨(h.2 field hfield).1,ih (h.2 field hfield).2 hle⟩⟩

omit [JsNumber ν] in
lemma ofFields_eq_map (fields : List (Text × Json ν)) :
    JsValue.ofFields fields = fields.map fun field => (field.1,JsValue.ofJson field.2) := by
  induction fields with
  | nil => rfl
  | cons field fields ih => rw [JsValue.ofFields, ih, List.map_cons]

/-- What is clean has clean properties. -/
theorem property_clean {depth : ℕ} {properties : List (String × Option (Json ν))} {path : Text}
    (h : visit isDatetime false (depth + 1) (JsValue.ofJson (objectJson properties)) path = []) {name : String}
    {value : Json ν} (hmem : (name,some value) ∈ properties) :
    visit isDatetime false depth (JsValue.ofJson value) (Text.of "$") = [] := by
  have hfield : (Text.of name,JsValue.ofJson value) ∈
      JsValue.ofFields (properties.filterMap fun p => p.2.map fun value => (Text.of p.1,value)) := by
    rw [ofFields_eq_map]
    exact List.mem_map.mpr ⟨(Text.of name,value),List.mem_filterMap.mpr ⟨(name,some value),hmem,rfl⟩,rfl⟩
  obtain ⟨index,hindex⟩ := List.mem_iff_getElem?.mp hfield
  rw [objectJson, JsValue.ofJson, visit, List.append_eq_nil_iff, List.flatMap_eq_nil_iff] at h
  have hclean := h.2 ((Text.of name,JsValue.ofJson value),index) (List.mk_mem_zipIdx_iff_getElem?.mpr hindex)
  exact visit_clean (List.append_eq_nil_iff.mp hclean).2 le_rfl

theorem textMetadataLeaks_of_visit {depth : ℕ} {text path : Text} (hdepth : depth ≤ 65)
    (h : visit isDatetime false depth (JsValue.ofJson (.string text) : JsValue ν) path = []) (allow : Bool) :
    textMetadataLeaks ν isDatetime text allow = [] := visit_clean h hdepth

end Scan
section Digests
variable {ν : Type} [JsNumber ν] {isDatetime : Text → Bool}

/-- The units of `path:sha256:` and of digests. -/
def opaqueAlphabet : List UInt16 := Text.of "path:sha256:0123456789abcdef"

/-- A digest in hexadecimal. -/
def IsDigest (digest : Text) : Prop := digest.length = 64 ∧ ∀ u ∈ digest, hexUnit u = true

lemma opaquePath_plain : opaquePath.Plain := ⟨Regex.plain_literalUnits _,Regex.plain_times (r := .unit hexUnit) trivial 64⟩

theorem opaquePathPattern_iff {path : Text} :
    opaquePathPattern.test path = true ↔ ∃ digest, IsDigest digest ∧ path = Text.of "path:sha256:" ++ digest := by
  rw [opaquePathPattern, Regex.test_anchored opaquePath_plain, opaquePath]
  simp only [Regex.Matches, Regex.literal, Regex.matches_literalUnits, Regex.matches_times_unit]
  constructor
  · rintro ⟨_,digest,rfl,hdigest,rfl⟩
    exact ⟨digest,hdigest,rfl⟩
  · rintro ⟨digest,hdigest,rfl⟩
    exact ⟨_,digest,rfl,hdigest,rfl⟩

lemma mem_opaqueAlphabet {u : UInt16} (h : hexUnit u = true) : u ∈ opaqueAlphabet ∧ Text.isSpace u = false := by
  have hascii : ∀ n < 0x80, hexUnit (UInt16.ofNat n) = true →
      UInt16.ofNat n ∈ opaqueAlphabet ∧ Text.isSpace (UInt16.ofNat n) = false := by decide +kernel
  have hlt : u.toNat < 0x80 := by
    simp only [hexUnit, Regex.ranges, List.any_cons, List.any_nil, Bool.or_false, Bool.or_eq_true, Bool.and_eq_true,
      decide_eq_true_eq] at h
    obtain ⟨-,hle⟩ | ⟨-,hle⟩ := h
    · exact Nat.lt_of_le_of_lt hle (by decide)
    · exact Nat.lt_of_le_of_lt hle (by decide)
  have hu := hascii u.toNat hlt
  rw [UInt16.ofNat_toNat] at hu
  exact hu h

/-- A path as the export writes the digest of one. -/
structure OpaqueText (path : Text) : Prop where
  alphabet : path ⊆ opaqueAlphabet
  spaceless : ∀ u ∈ path, Text.isSpace u = false
  short : path.length = 76
  begins : ∃ rest, path = 0x70 :: rest

theorem opaqueText_digest {digest : Text} (h : IsDigest digest) : OpaqueText (Text.of "path:sha256:" ++ digest) := by
  have hsub : (Text.of "path:sha256:").all (fun u => opaqueAlphabet.contains u) = true := by decide +kernel
  have hspaceless : (Text.of "path:sha256:").all (fun u => !Text.isSpace u) = true := by decide +kernel
  have hfront : Text.of "path:sha256:" ⊆ opaqueAlphabet ∧ ∀ u ∈ Text.of "path:sha256:", Text.isSpace u = false :=
    ⟨fun u hu => by simpa using List.all_eq_true.mp hsub u hu,fun u hu => by simpa using List.all_eq_true.mp hspaceless u hu⟩
  refine ⟨?_,?_,by rw [List.length_append, h.1]; rfl,_,rfl⟩
  · exact List.append_subset.mpr ⟨hfront.1,fun u hu => (mem_opaqueAlphabet (h.2 u hu)).1⟩
  · intro u hu
    obtain hu | hu := List.mem_append.mp hu
    · exact hfront.2 u hu
    · exact (mem_opaqueAlphabet (h.2 u hu)).2

namespace OpaqueText
variable {path : Text}

lemma withSlashes_eq (h : OpaqueText path) : withSlashes path = path :=
  withSlashes_eq_self fun hmem => absurd (h.alphabet hmem) (by decide +kernel)

lemma driveless (h : OpaqueText path) : drivePattern.test path = false := Regex.test_eq_false (by decide +kernel) h.alphabet

lemma unsecret (h : OpaqueText path) : isSecretLikePath path = false := by
  rw [isSecretLikePath, List.any_eq_false]
  intro pattern hpattern
  have hinfeasible : ∀ pattern ∈ secretPathPatterns, pattern.feasible opaqueAlphabet = false := by decide +kernel
  simp [Regex.test_eq_false (hinfeasible pattern hpattern) h.alphabet]

lemma bytes (h : OpaqueText path) : path.byteLength ≤ defaultUntrustedTextMaxBytes := by
  have hle := Text.byteLength_le path
  rw [h.short] at hle
  exact hle.trans (by decide)

lemma textLeaks_nil (h : OpaqueText path) (allow : Bool) (place : Text) : textLeaks allow path place = [] := by
  have hinfeasible : ∀ rule ∈ secretTextPatterns, rule.2.feasible opaqueAlphabet = false := by decide +kernel
  simp only [textLeaks, List.append_eq_nil_iff, leakWhen_eq_nil, List.flatMap_eq_nil_iff]
  refine ⟨⟨Regex.test_eq_false (by decide +kernel) h.alphabet,Regex.test_eq_false (by decide +kernel) h.alphabet⟩,?_⟩
  intro rule hrule
  rw [Regex.test_eq_false (hinfeasible rule hrule) h.alphabet, Bool.and_false]

lemma clean (h : OpaqueText path) (allow : Bool) : textMetadataLeaks ν isDatetime path allow = [] := by
  obtain ⟨rest,rfl⟩ := h.begins
  have hparse : (JsValue.parse (0x70 :: rest) : Option (JsValue ν)) = none := rfl
  rw [textMetadataLeaks, scanMetadataLeaks, visit, h.textLeaks_nil, encoded, hparse]
  rfl

end OpaqueText
end Digests

section Exports
variable {ν : Type} [JsNumber ν] {isDatetime : Text → Bool} {sha256 : Text → Text}

/-- What `sanitizeWorkspacePath` checks of a path. -/
structure WorkspaceAccepted (ν : Type) [JsNumber ν] (isDatetime : Text → Bool) (path : Text) : Prop where
  ne_nil : path.trim ≠ []
  bytes : path.byteLength ≤ defaultUntrustedTextMaxBytes
  unsecret : isSecretLikePath (withSlashes path.trim) = false
  clean : textMetadataLeaks ν isDatetime path.trim true = []

theorem assertWorkspaceSafe_eq_ok {text : Text} {u : Unit} :
    assertWorkspaceSafe ν isDatetime text = .ok u ↔ textMetadataLeaks ν isDatetime text true = [] := by
  unfold assertWorkspaceSafe
  cases textMetadataLeaks ν isDatetime text true <;> simp

theorem sanitizeWorkspacePath_eq_ok {path text : Text} {label : String} :
    sanitizeWorkspacePath ν isDatetime path label = .ok text ↔ WorkspaceAccepted ν isDatetime path ∧ text = path.trim := by
  simp only [sanitizeWorkspacePath, normalizeText, assertMaxBytes, except_bind_eq_ok, refuse_eq_ok,
    assertWorkspaceSafe_eq_ok, pure, Except.pure, Except.ok.injEq]
  constructor
  · rintro ⟨_,⟨_,hne,rfl⟩,_,hbytes,_,hsecret,_,hclean,rfl⟩
    exact ⟨⟨by simpa using hne,by simpa using hbytes,hsecret,hclean⟩,rfl⟩
  · rintro ⟨⟨hne,hbytes,hsecret,hclean⟩,rfl⟩
    exact ⟨_,⟨(),by simpa using hne,rfl⟩,(),by simpa using hbytes,(),hsecret,(),hclean,rfl⟩

theorem exportPath_eq_ok {label : String} {path : Text} {exported : Option Text} :
    exportPath ν isDatetime sha256 label (some path) = .ok exported ↔ ∃ result, exported = some result ∧
      WorkspaceAccepted ν isDatetime path ∧ opaqueExportPath ν isDatetime sha256 path.trim = .ok result := by
  simp only [exportPath, except_bind_eq_ok, sanitizeWorkspacePath_eq_ok, pure, Except.pure, Except.ok.injEq]
  constructor
  · rintro ⟨_,⟨haccepted,rfl⟩,result,hresult,rfl⟩
    exact ⟨result,rfl,haccepted,hresult⟩
  · rintro ⟨result,rfl,haccepted,hresult⟩
    exact ⟨_,⟨haccepted,rfl⟩,result,hresult,rfl⟩

/-- A path that is exported as it is or as its digest. -/
def exportsOpaque (path : Text) : Bool :=
  opaquePathPattern.test path ||
    (PosixPath.isAbsolute path || drivePattern.test (withSlashes path) || isSecretText path)

/-- A path that is exported opaque, or whose spelling without empty segments and dots has no white
space at its ends and begins at no drive. -/
def PathSettles (path : Text) : Prop :=
  exportsOpaque path.trim = true ∨
    (PosixPath.settled (withSlashes path.trim)).trim = PosixPath.settled (withSlashes path.trim) ∧
      drivePattern.test (PosixPath.settled (withSlashes path.trim)) = false

theorem isSecretText_of_clean {text : Text} (h : textMetadataLeaks ν isDatetime text false = []) :
    isSecretText text = false := by
  have htext : textLeaks false text (Text.of "$") = [] := (List.append_eq_nil_iff.mp h).1
  rw [textLeaks, List.append_eq_nil_iff, List.flatMap_eq_nil_iff] at htext
  rw [isSecretText, List.any_eq_false]
  intro rule hrule
  have hfalse := leakWhen_eq_nil.mp (htext.2 rule hrule)
  simpa using hfalse

/-- The three ways of an export. -/
theorem opaqueExportPath_cases {path result : Text} (hdigest : ∀ text, IsDigest (sha256 text))
    (h : opaqueExportPath ν isDatetime sha256 path = .ok result) :
    (exportsOpaque path = true ∧ (opaquePathPattern.test path = true ∧ result = path ∨ opaquePathPattern.test result = true)) ∨
      exportsOpaque path = false ∧ sanitizeMetadataPath ν isDatetime path = .ok result := by
  unfold opaqueExportPath at h
  unfold exportsOpaque
  split_ifs at h with hdigested hhashed
  · cases h
    exact Or.inl ⟨by rw [hdigested]; rfl,Or.inl ⟨hdigested,rfl⟩⟩
  · cases h
    exact Or.inl ⟨by rw [hhashed, Bool.or_true],Or.inr (opaquePathPattern_iff.mpr ⟨_,hdigest path,rfl⟩)⟩
  · exact Or.inr ⟨by simp_all,h⟩

/-- An opaque path is exported as it is. -/
theorem exportPath_opaque {label : String} {path : Text} (h : opaquePathPattern.test path = true) :
    exportPath ν isDatetime sha256 label (some path) = .ok (some path) := by
  obtain ⟨digest,hdigest,rfl⟩ := opaquePathPattern_iff.mp h
  have hdigested := opaqueText_digest hdigest
  have htrim := Text.trim_eq_self hdigested.spaceless
  refine exportPath_eq_ok.mpr ⟨_,rfl,⟨?_,hdigested.bytes,?_,?_⟩,?_⟩
  · rw [htrim]
    exact List.cons_ne_nil _ _
  · rw [htrim, hdigested.withSlashes_eq]
    exact hdigested.unsecret
  · rw [htrim]
    exact hdigested.clean true
  · rw [htrim, opaqueExportPath, if_pos h]

/-- An exported path is exported as it is exactly where the path it comes from settles. -/
theorem exportPath_settles_iff {label : String} {path result : Text} (hdigest : ∀ text, IsDigest (sha256 text))
    (h : exportPath ν isDatetime sha256 label (some path) = .ok (some result))
    (hclean : textMetadataLeaks ν isDatetime result false = []) :
    exportPath ν isDatetime sha256 label (some result) = .ok (some result) ↔ PathSettles path := by
  obtain ⟨_,hresult,haccepted,hexport⟩ := exportPath_eq_ok.mp h
  cases hresult
  obtain ⟨hdigested,hsame⟩ | ⟨hplain,hsanitized⟩ := opaqueExportPath_cases hdigest hexport
  · refine iff_of_true ?_ (Or.inl hdigested)
    obtain ⟨htest,rfl⟩ | htest := hsame
    · exact exportPath_opaque htest
    · exact exportPath_opaque htest
  · obtain ⟨hpath,rfl⟩ := sanitizeMetadataPath_eq_ok.mp hsanitized
    have htrim := Text.trim_trim path
    have hslashes := hpath.settled_withSlashes
    have hbytes := hpath.settled_bytes
    have hunsecret := hpath.unsecret
    have hsettled := PosixPath.plain_settled hpath.plain
    have hsettles := hpath.settles
    rw [PathSettles, hplain]
    rw [htrim] at hslashes hbytes hunsecret hsettled hsettles hclean ⊢
    generalize PosixPath.settled (withSlashes path.trim) = y at hslashes hbytes hunsecret hsettled hsettles hclean ⊢
    simp only [Bool.false_eq_true, false_or]
    constructor
    · intro hagain
      obtain ⟨_,hresult,-,hexported⟩ := exportPath_eq_ok.mp hagain
      cases hresult
      have hdigested : opaquePathPattern.test y = true → y.trim = y ∧ drivePattern.test y = false := fun htest => by
        obtain ⟨digest,hd,heq⟩ := opaquePathPattern_iff.mp htest
        have hpattern := opaqueText_digest hd
        rw [← heq] at hpattern
        exact ⟨Text.trim_eq_self hpattern.spaceless,hpattern.driveless⟩
      obtain ⟨-,⟨htest,hsame⟩ | htest⟩ | ⟨hrelative,hsanitized⟩ := opaqueExportPath_cases hdigest hexported
      · exact hdigested (by rw [hsame]; exact htest)
      · exact hdigested htest
      · obtain ⟨hagain,hsame⟩ := sanitizeMetadataPath_eq_ok.mp hsanitized
        have hplain' := hagain.plain
        rw [Text.trim_trim] at hsame hplain'
        have hspaceless := trimmed_of_settled hplain' hsame
        rw [hspaceless, exportsOpaque, Bool.or_eq_false_iff, Bool.or_eq_false_iff, Bool.or_eq_false_iff, hslashes]
          at hrelative
        exact ⟨hspaceless,hrelative.2.1.2⟩
    · rintro ⟨hspaceless,hdrive⟩
      refine exportPath_eq_ok.mpr ⟨y,rfl,⟨?_,hbytes.trans (by decide),?_,?_⟩,?_⟩
      · rw [hspaceless]
        exact hsettled.ne_nil
      · rw [hspaceless, hslashes]
        exact hunsecret
      · rw [hspaceless]
        exact visit_clean hclean le_rfl
      · rw [hspaceless]
        unfold opaqueExportPath
        rw [hsettled.relative, hslashes, hdrive, isSecretText_of_clean hclean]
        split_ifs with htest hfalse
        · rfl
        · cases hfalse
        · exact hsettles ⟨hspaceless,hdrive,hclean⟩

end Exports

section Packets
variable {ν : Type} [JsNumber ν] {isDatetime : Text → Bool} {sha256 : Text → Text}

/-- An exported path is not empty. -/
theorem exportPath_ne_nil {label : String} {path : Text} {exported : Option Text}
    (hdigest : ∀ text, IsDigest (sha256 text))
    (h : exportPath ν isDatetime sha256 label (some path) = .ok exported) : ∃ result, exported = some result ∧ result ≠ [] := by
  obtain ⟨result,rfl,haccepted,hexport⟩ := exportPath_eq_ok.mp h
  refine ⟨result,rfl,?_⟩
  obtain ⟨-,⟨-,rfl⟩ | htest⟩ | ⟨-,hsanitized⟩ := opaqueExportPath_cases hdigest hexport
  · exact haccepted.ne_nil
  · obtain ⟨digest,-,rfl⟩ := opaquePathPattern_iff.mp htest
    exact List.cons_ne_nil _ _
  · obtain ⟨hpath,rfl⟩ := sanitizeMetadataPath_eq_ok.mp hsanitized
    exact (PosixPath.plain_settled hpath.plain).ne_nil

/-- The same of a path that may be missing. -/
theorem exportPath_optional {label : String} {path exported : Option Text} (hdigest : ∀ text, IsDigest (sha256 text))
    (h : exportPath ν isDatetime sha256 label path = .ok exported) (hpath : optionalText path = true) :
    optionalText exported = true := by
  cases path with
  | none =>
    cases h
    exact hpath
  | some path =>
    obtain ⟨result,rfl,hne⟩ := exportPath_ne_nil hdigest h
    simpa [optionalText, requiredText] using hne

theorem exportPath_option_settles_iff {label : String} {path exported : Option Text}
    (hdigest : ∀ text, IsDigest (sha256 text)) (h : exportPath ν isDatetime sha256 label path = .ok exported)
    (hclean : ∀ result ∈ exported, textMetadataLeaks ν isDatetime result false = []) :
    exportPath ν isDatetime sha256 label exported = .ok exported ↔ ∀ text ∈ path, PathSettles text := by
  cases path with
  | none =>
    cases h
    simp [exportPath]
  | some path =>
    obtain ⟨result,rfl,-⟩ := exportPath_ne_nil hdigest h
    simpa using exportPath_settles_iff hdigest h (hclean result rfl)

theorem exportWorkspace_eq_ok {workspace : HandoffWorkspace} {exported : Option HandoffWorkspace} :
    exportWorkspace ν isDatetime sha256 (some workspace) = .ok exported ↔ ∃ repoRoot worktreePath,
      exportPath ν isDatetime sha256 "workspace root" workspace.repoRoot = .ok repoRoot ∧
        exportPath ν isDatetime sha256 "worktree path" workspace.worktreePath = .ok worktreePath ∧
          exported = some { workspace with repoRoot := repoRoot, worktreePath := worktreePath } := by
  simp only [exportWorkspace, except_bind_eq_ok, pure, Except.pure, Except.ok.injEq]
  constructor
  · rintro ⟨repoRoot,hroot,worktreePath,hpath,rfl⟩
    exact ⟨repoRoot,worktreePath,hroot,hpath,rfl⟩
  · rintro ⟨repoRoot,worktreePath,hroot,hpath,rfl⟩
    exact ⟨repoRoot,hroot,worktreePath,hpath,rfl⟩

theorem exportLease_eq_ok {lease : WorktreeLeaseRef} {exported : Option WorktreeLeaseRef} :
    exportLease ν isDatetime sha256 (some lease) = .ok exported ↔ ∃ path,
      exportPath ν isDatetime sha256 "lease path" lease.path = .ok path ∧ exported = some { lease with path := path } := by
  simp only [exportLease, except_bind_eq_ok, pure, Except.pure, Except.ok.injEq]
  constructor
  · rintro ⟨path,hpath,rfl⟩
    exact ⟨path,hpath,rfl⟩
  · rintro ⟨path,hpath,rfl⟩
    exact ⟨path,hpath,rfl⟩

/-- A packet with another workspace and lease. -/
def HandoffPacketOf.project (packet : HandoffPacket) (workspace : Option HandoffWorkspace)
    (lease : Option WorktreeLeaseRef) : HandoffPacket :=
  { packet with workspace := workspace, evidence := { packet.evidence with worktreeLease := lease } }

/-- The checks of the transform on the texts that it does not rewrite. -/
structure PassesTexts (ν : Type) [JsNumber ν] (isDatetime : Text → Bool) (packet : HandoffPacket) : Prop where
  objective : ∃ text, sanitizeMetadataText ν isDatetime packet.objective "objective" 400 = .ok text
  action : checkOptionalText ν isDatetime "next action" 400 packet.nextRecommendedAction = .ok ()
  paths : checkPaths ν isDatetime packet.evidence.paths = .ok ()

theorem transformPacket_eq_ok {packet parsed : HandoffPacket} :
    transformPacket ν isDatetime sha256 packet = .ok parsed ↔ ∃ workspace lease,
      exportWorkspace ν isDatetime sha256 packet.workspace = .ok workspace ∧
        exportLease ν isDatetime sha256 packet.evidence.worktreeLease = .ok lease ∧
          metadataSchemaCheck isDatetime ((packet.project workspace lease).toJson : Json ν) = true ∧
            PassesTexts ν isDatetime packet ∧ parsed = packet.project workspace lease := by
  simp only [transformPacket, except_bind_eq_ok, refuse_eq_ok, pure, Except.pure, Except.ok.injEq, Bool.not_eq_false']
  constructor
  · rintro ⟨workspace,hworkspace,lease,hlease,_,hclean,text,htext,_,haction,_,hpaths,rfl⟩
    exact ⟨workspace,lease,hworkspace,hlease,hclean,⟨⟨text,htext⟩,haction,hpaths⟩,rfl⟩
  · rintro ⟨workspace,lease,hworkspace,hlease,hclean,⟨⟨text,htext⟩,haction,hpaths⟩,rfl⟩
    exact ⟨workspace,hworkspace,lease,hlease,(),hclean,text,htext,(),haction,(),hpaths,rfl⟩

/-- The fields of a packet pass with any workspace and lease that pass. -/
theorem packetFields_project {packet : HandoffPacket} {workspace : Option HandoffWorkspace}
    {lease : Option WorktreeLeaseRef} (h : packetFields ν isDatetime packet = true)
    (hworkspace : packet.workspace.all workspaceSchema = true → workspace.all workspaceSchema = true)
    (hlease : packet.evidence.worktreeLease.all worktreeLeaseRefSchema = true →
      lease.all worktreeLeaseRefSchema = true) : packetFields ν isDatetime (packet.project workspace lease) = true := by
  simp only [packetFields, evidenceSchema, Bool.and_eq_true, HandoffPacketOf.project] at h ⊢
  grind

/-- In a clean packet the workspace's paths are clean. -/
theorem workspace_clean {packet : HandoffPacket} {workspace : HandoffWorkspace} {lease : Option WorktreeLeaseRef}
    (h : metadataSchemaCheck isDatetime ((packet.project (some workspace) lease).toJson : Json ν) = true) :
    (∀ path ∈ workspace.repoRoot, textMetadataLeaks ν isDatetime path false = []) ∧
      ∀ path ∈ workspace.worktreePath, textMetadataLeaks ν isDatetime path false = [] := by
  have hpacket := List.isEmpty_iff.mp h
  have hworkspace : visit isDatetime false 64 (JsValue.ofJson (workspace.toJson : Json ν)) (Text.of "$") = [] :=
    property_clean hpacket (List.mem_of_getElem? (i := 11) rfl)
  constructor
  · intro path hpath
    rw [HandoffWorkspace.toJson, Option.mem_def.mp hpath] at hworkspace
    exact textMetadataLeaks_of_visit (by omega) (property_clean hworkspace (List.mem_of_getElem? (i := 0) rfl)) false
  · intro path hpath
    rw [HandoffWorkspace.toJson, Option.mem_def.mp hpath] at hworkspace
    exact textMetadataLeaks_of_visit (by omega) (property_clean hworkspace (List.mem_of_getElem? (i := 2) rfl)) false

/-- In a clean packet the lease's path is clean. -/
theorem lease_clean {packet : HandoffPacket} {workspace : Option HandoffWorkspace} {lease : WorktreeLeaseRef}
    (h : metadataSchemaCheck isDatetime ((packet.project workspace (some lease)).toJson : Json ν) = true) :
    ∀ path ∈ lease.path, textMetadataLeaks ν isDatetime path false = [] := by
  intro path hpath
  have hpacket := List.isEmpty_iff.mp h
  have hevidence := property_clean hpacket (List.mem_of_getElem? (i := 13) rfl)
  have hlease : visit isDatetime false 63 (JsValue.ofJson (lease.toJson : Json ν)) (Text.of "$") = [] :=
    property_clean hevidence (List.mem_of_getElem? (i := 0) rfl)
  rw [WorktreeLeaseRef.toJson, Option.mem_def.mp hpath] at hlease
  exact textMetadataLeaks_of_visit (by omega) (property_clean hlease (List.mem_of_getElem? (i := 1) rfl)) false

/-- The paths that the schema rewrites. -/
def HandoffPacketOf.exportedPaths {σ : Type} (packet : HandoffPacketOf σ) : List Text :=
  (packet.workspace.bind (·.repoRoot)).toList ++ (packet.workspace.bind (·.worktreePath)).toList ++
    (packet.evidence.worktreeLease.bind (·.path)).toList

theorem exportedPaths_settle_iff {σ : Type} {packet : HandoffPacketOf σ} :
    (∀ path ∈ packet.exportedPaths, PathSettles path) ↔
      ((∀ path ∈ packet.workspace.bind (·.repoRoot), PathSettles path) ∧
        ∀ path ∈ packet.workspace.bind (·.worktreePath), PathSettles path) ∧
          ∀ path ∈ packet.evidence.worktreeLease.bind (·.path), PathSettles path := by
  simp only [HandoffPacketOf.exportedPaths, List.mem_append, Option.mem_toList, Option.mem_def, or_imp, forall_and]

theorem exportWorkspace_settles_iff {packet : HandoffPacket} {workspace : Option HandoffWorkspace}
    {lease : Option WorktreeLeaseRef} (hdigest : ∀ text, IsDigest (sha256 text))
    (h : exportWorkspace ν isDatetime sha256 packet.workspace = .ok workspace)
    (hclean : metadataSchemaCheck isDatetime ((packet.project workspace lease).toJson : Json ν) = true) :
    exportWorkspace ν isDatetime sha256 workspace = .ok workspace ↔
      (∀ path ∈ packet.workspace.bind (·.repoRoot), PathSettles path) ∧
        ∀ path ∈ packet.workspace.bind (·.worktreePath), PathSettles path := by
  cases hpacket : packet.workspace with
  | none =>
    rw [hpacket] at h
    cases h
    simp [exportWorkspace]
  | some given =>
    rw [hpacket] at h
    obtain ⟨repoRoot,worktreePath,hroot,hpath,rfl⟩ := exportWorkspace_eq_ok.mp h
    obtain ⟨hrootClean,hpathClean⟩ := workspace_clean hclean
    rw [exportWorkspace_eq_ok, Option.bind_some, Option.bind_some, ← exportPath_option_settles_iff hdigest hroot hrootClean,
      ← exportPath_option_settles_iff hdigest hpath hpathClean]
    constructor
    · rintro ⟨root,path,hroot,hpath,heq⟩
      simp only [Option.some.injEq, HandoffWorkspace.mk.injEq, true_and, and_true] at heq
      obtain ⟨rfl,rfl⟩ := heq
      exact ⟨hroot,hpath⟩
    · rintro ⟨hroot,hpath⟩
      exact ⟨_,_,hroot,hpath,rfl⟩

theorem exportLease_settles_iff {packet : HandoffPacket} {workspace : Option HandoffWorkspace}
    {lease : Option WorktreeLeaseRef} (hdigest : ∀ text, IsDigest (sha256 text))
    (h : exportLease ν isDatetime sha256 packet.evidence.worktreeLease = .ok lease)
    (hclean : metadataSchemaCheck isDatetime ((packet.project workspace lease).toJson : Json ν) = true) :
    exportLease ν isDatetime sha256 lease = .ok lease ↔
      ∀ path ∈ packet.evidence.worktreeLease.bind (·.path), PathSettles path := by
  cases hpacket : packet.evidence.worktreeLease with
  | none =>
    rw [hpacket] at h
    cases h
    simp [exportLease]
  | some given =>
    rw [hpacket] at h
    obtain ⟨path,hpath,rfl⟩ := exportLease_eq_ok.mp h
    rw [exportLease_eq_ok, Option.bind_some, ← exportPath_option_settles_iff hdigest hpath (lease_clean hclean)]
    constructor
    · rintro ⟨path,hpath,heq⟩
      simp only [Option.some.injEq, WorktreeLeaseRef.mk.injEq, true_and, and_true] at heq
      subst heq
      exact hpath
    · intro hpath
      exact ⟨_,hpath,rfl⟩

/-- An exported workspace and lease pass the schema's fields. -/
theorem packetFields_exported {packet : HandoffPacket} {workspace : Option HandoffWorkspace}
    {lease : Option WorktreeLeaseRef} (hdigest : ∀ text, IsDigest (sha256 text))
    (hfields : packetFields ν isDatetime packet = true)
    (hworkspace : exportWorkspace ν isDatetime sha256 packet.workspace = .ok workspace)
    (hlease : exportLease ν isDatetime sha256 packet.evidence.worktreeLease = .ok lease) :
    packetFields ν isDatetime (packet.project workspace lease) = true := by
  apply packetFields_project hfields
  · intro hall
    cases hpacket : packet.workspace with
    | none =>
      rw [hpacket] at hworkspace
      cases hworkspace
      rfl
    | some given =>
      rw [hpacket] at hworkspace hall
      obtain ⟨repoRoot,worktreePath,hroot,hpath,rfl⟩ := exportWorkspace_eq_ok.mp hworkspace
      simp only [Option.all_some, workspaceSchema, Bool.and_eq_true] at hall ⊢
      obtain ⟨⟨⟨⟨hrootText,hbranch⟩,hpathText⟩,hbase⟩,hdiff⟩ := hall
      exact ⟨⟨⟨⟨exportPath_optional hdigest hroot hrootText,hbranch⟩,exportPath_optional hdigest hpath hpathText⟩,hbase⟩,hdiff⟩
  · intro hall
    cases hpacket : packet.evidence.worktreeLease with
    | none =>
      rw [hpacket] at hlease
      cases hlease
      rfl
    | some given =>
      rw [hpacket] at hlease hall
      obtain ⟨path,hpath,rfl⟩ := exportLease_eq_ok.mp hlease
      simp only [Option.all_some, worktreeLeaseRefSchema, Bool.and_eq_true] at hall ⊢
      obtain ⟨⟨⟨hid,hpathText⟩,hbranch⟩,htoken⟩ := hall
      exact ⟨⟨⟨hid,exportPath_optional hdigest hpath hpathText⟩,hbranch⟩,htoken⟩

theorem handoffPacketSchema_eq_some {packet parsed : HandoffPacket} :
    handoffPacketSchema ν isDatetime sha256 packet = some parsed ↔
      packetFields ν isDatetime packet = true ∧ transformPacket ν isDatetime sha256 packet = .ok parsed := by
  unfold handoffPacketSchema
  split_ifs with hfields
  · cases h : transformPacket ν isDatetime sha256 packet <;> simp [hfields, Except.toOption]
  · simp [hfields]

/-- A parsed packet is parsed to itself exactly where the rewritten paths settle. -/
theorem handoffPacketSchema_again_iff {packet parsed : HandoffPacket} (hdigest : ∀ text, IsDigest (sha256 text))
    (h : handoffPacketSchema ν isDatetime sha256 packet = some parsed) :
    handoffPacketSchema ν isDatetime sha256 parsed = some parsed ↔ ∀ path ∈ packet.exportedPaths, PathSettles path := by
  obtain ⟨hfields,htransform⟩ := handoffPacketSchema_eq_some.mp h
  obtain ⟨workspace,lease,hworkspace,hlease,hclean,hpasses,rfl⟩ := transformPacket_eq_ok.mp htransform
  rw [handoffPacketSchema_eq_some, transformPacket_eq_ok]
  have hpaths : (∀ path ∈ packet.exportedPaths, PathSettles path) ↔
      exportWorkspace ν isDatetime sha256 workspace = .ok workspace ∧
        exportLease ν isDatetime sha256 lease = .ok lease := by
    rw [exportWorkspace_settles_iff hdigest hworkspace hclean, exportLease_settles_iff hdigest hlease hclean,
      exportedPaths_settle_iff]
  rw [hpaths]
  constructor
  · rintro ⟨-,workspace',lease',hworkspace',hlease',-,-,heq⟩
    have hsame : workspace = workspace' := congrArg HandoffPacketOf.workspace heq
    have hsame' : lease = lease' := congrArg (fun p : HandoffPacket => p.evidence.worktreeLease) heq
    subst hsame hsame'
    exact ⟨hworkspace',hlease'⟩
  · rintro ⟨hworkspace',hlease'⟩
    exact ⟨packetFields_exported hdigest hfields hworkspace hlease,workspace,lease,hworkspace',hlease',hclean,
      ⟨hpasses.objective,hpasses.action,hpasses.paths⟩,rfl⟩

theorem pathSettles_trim {path : Text} : PathSettles path.trim ↔ PathSettles path := by
  rw [PathSettles, PathSettles, Text.trim_trim]

theorem normalizeOptional_eq_ok {α β : Type} {normalize : α → Except String β} {value : Option α} {result : Option β} :
    normalizeOptional normalize value = .ok result ↔
      value = none ∧ result = none ∨ ∃ v r, value = some v ∧ result = some r ∧ normalize v = .ok r := by
  cases value with
  | none => simp [normalizeOptional, eq_comm]
  | some v =>
    simp only [normalizeOptional, except_bind_eq_ok, pure, Except.pure, Except.ok.injEq]
    constructor
    · rintro ⟨r,hr,rfl⟩
      exact Or.inr ⟨v,r,rfl,rfl,hr⟩
    · rintro (⟨h,-⟩ | ⟨_,r,h,rfl,hr⟩)
      · cases h
      · cases h
        exact ⟨r,hr,rfl⟩

/-- The builder trims the paths that the schema rewrites. -/
theorem sanitizedPath_settles {label : String} {path result : Option Text}
    (h : normalizeOptional (sanitizeWorkspacePath ν isDatetime · label) path = .ok result) :
    (∀ text ∈ result, PathSettles text) ↔ ∀ text ∈ path, PathSettles text := by
  obtain ⟨rfl,rfl⟩ | ⟨given,trimmed,rfl,rfl,hsanitized⟩ := normalizeOptional_eq_ok.mp h
  · rfl
  · obtain ⟨-,rfl⟩ := sanitizeWorkspacePath_eq_ok.mp hsanitized
    simp [pathSettles_trim]

theorem normalizeWorkspace_settles {workspace result : Option HandoffWorkspace}
    (h : normalizeWorkspace ν isDatetime workspace = .ok result) :
    ((∀ path ∈ result.bind (·.repoRoot), PathSettles path) ↔ ∀ path ∈ workspace.bind (·.repoRoot), PathSettles path) ∧
      ((∀ path ∈ result.bind (·.worktreePath), PathSettles path) ↔
        ∀ path ∈ workspace.bind (·.worktreePath), PathSettles path) := by
  obtain ⟨rfl,rfl⟩ | ⟨given,normalized,rfl,rfl,hnormal⟩ := normalizeOptional_eq_ok.mp h
  · exact ⟨Iff.rfl,Iff.rfl⟩
  · simp only [except_bind_eq_ok, pure, Except.pure, Except.ok.injEq] at hnormal
    obtain ⟨root,hroot,branch,-,path,hpath,base,-,diff,-,rfl⟩ := hnormal
    exact ⟨sanitizedPath_settles hroot,sanitizedPath_settles hpath⟩

theorem normalizeWorktreeLease_settles {lease result : Option WorktreeLeaseRef}
    (h : normalizeWorktreeLease ν isDatetime lease = .ok result) :
    (∀ path ∈ result.bind (·.path), PathSettles path) ↔ ∀ path ∈ lease.bind (·.path), PathSettles path := by
  obtain ⟨rfl,rfl⟩ | ⟨given,normalized,rfl,rfl,hnormal⟩ := normalizeOptional_eq_ok.mp h
  · rfl
  · simp only [except_bind_eq_ok, parseWith] at hnormal
    obtain ⟨id,-,path,hpath,branch,-,token,-,hparsed⟩ := hnormal
    split_ifs at hparsed
    cases hparsed
    exact sanitizedPath_settles hpath

theorem normalizePacket_settles {input : HandoffPacketInput} {packet : HandoffPacket}
    (h : normalizePacket ν isDatetime input = .ok packet) :
    (∀ path ∈ packet.exportedPaths, PathSettles path) ↔ ∀ path ∈ input.exportedPaths, PathSettles path := by
  simp only [normalizePacket, except_bind_eq_ok, pure, Except.pure, Except.ok.injEq] at h
  obtain ⟨_,-,_,-,_,-,_,-,_,-,_,-,_,-,_,-,_,-,workspace,hworkspace,_,-,evidence,hevidence,_,-,_,-,_,-,_,-,_,-,_,-,_,-,rfl⟩ := h
  simp only [normalizeEvidence, except_bind_eq_ok, pure, Except.pure, Except.ok.injEq] at hevidence
  obtain ⟨lease,hlease,_,-,_,-,_,-,_,-,_,-,_,-,_,-,_,-,rfl⟩ := hevidence
  obtain ⟨hroot,hpath⟩ := normalizeWorkspace_settles hworkspace
  rw [exportedPaths_settle_iff, exportedPaths_settle_iff]
  exact and_congr (and_congr hroot hpath) (normalizeWorktreeLease_settles hlease)

/-- What the schema or the builder gave is parsed to itself exactly where the rewritten paths settle. -/
theorem handoffPacket_settles_iff (hdigest : ∀ text, IsDigest (sha256 text)) :
    (∀ packet parsed, handoffPacketSchema ν isDatetime sha256 packet = some parsed →
      (handoffPacketSchema ν isDatetime sha256 parsed = some parsed ↔ ∀ path ∈ packet.exportedPaths, PathSettles path)) ∧
    ∀ input parsed, buildHandoffPacket ν isDatetime sha256 input = some parsed →
      (handoffPacketSchema ν isDatetime sha256 parsed = some parsed ↔ ∀ path ∈ input.exportedPaths, PathSettles path) := by
  refine ⟨fun packet parsed => handoffPacketSchema_again_iff hdigest,fun input parsed h => ?_⟩
  obtain ⟨packet,hpacket,hschema⟩ := Option.bind_eq_some_iff.mp h
  have hnormal : normalizePacket ν isDatetime input = .ok packet := by
    cases hn : normalizePacket ν isDatetime input with
    | error e =>
      rw [hn] at hpacket
      cases hpacket
    | ok q =>
      rw [hn] at hpacket
      cases hpacket
      rfl
  rw [handoffPacketSchema_again_iff hdigest hschema, normalizePacket_settles hnormal]

end Packets

section Samples

/-- A packet for a workspace. -/
def samplePacket (repoRoot : String) : HandoffPacket where
  packetId := Text.of "p"
  createdAt := Text.of "t"
  sourceSessionIds := [Text.of "s"]
  sourceHarnesses := [Text.of "codex"]
  targetHarness := none
  targetProvider := none
  reason := .review
  objective := Text.of "o"
  currentStatus := .blocked
  taskContract := none
  workspace := some ⟨some (Text.of repoRoot),none,none,none,none⟩
  facts := none
  evidence := ⟨none,none,none,none,none,none,none,none,none,none,none⟩
  decisions := none
  assumptions := none
  failedAttempts := none
  risks := none
  openQuestions := none
  nextRecommendedAction := none
  contextPolicy := ⟨false,none,false,false,false,false,none,none⟩
  requiredOutput := none

/-- A digest of nothing that occurs below. -/
def sampleDigest (_ : Text) : Text := List.replicate 64 0x30

theorem sampleDigest_isDigest (text : Text) : IsDigest (sampleDigest text) :=
  ⟨List.length_replicate,fun u hu => by rw [List.eq_of_mem_replicate hu]; decide⟩

theorem handoffPacket_settles_iff_source :
    handoffPacketSchema ℤ (fun _ => true) sampleDigest (samplePacket "./src") = some (samplePacket "src") ∧
      handoffPacketSchema ℤ (fun _ => true) sampleDigest (samplePacket "src") = some (samplePacket "src") :=
  have h : handoffPacketSchema ℤ (fun _ => true) sampleDigest (samplePacket "./src") = some (samplePacket "src") := by
    decide +kernel
  ⟨h,((handoffPacket_settles_iff sampleDigest_isDigest).1 _ _ h).mpr fun path hpath => by
    rw [List.mem_singleton.mp hpath]
    exact Or.inr ⟨by decide +kernel,by decide +kernel⟩⟩

/-- A root behind a dot becomes a drive, and that a digest. -/
theorem handoffPacket_unsettled : ¬∀ packet parsed,
    handoffPacketSchema ℤ (fun _ => true) sampleDigest packet = some parsed →
      handoffPacketSchema ℤ (fun _ => true) sampleDigest parsed = some parsed := by
  intro h
  have hparsed : handoffPacketSchema ℤ (fun _ => true) sampleDigest (samplePacket "./C:/x") =
      some (samplePacket "C:/x") := by decide +kernel
  have hsettles := (handoffPacketSchema_again_iff sampleDigest_isDigest hparsed).mp (h _ _ hparsed)
    (Text.of "./C:/x") List.mem_cons_self
  obtain hdigested | ⟨-,hdrive⟩ := hsettles
  · exact absurd hdigested (by decide +kernel)
  · exact absurd hdrive (by decide +kernel)

end Samples
end OmniagentPlus.CoreContracts
