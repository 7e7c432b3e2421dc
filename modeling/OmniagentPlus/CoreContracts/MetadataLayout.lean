import OmniagentPlus.CoreContracts.MetadataPath
import OmniagentPlus.Foundation.RegexSegments

/-! When a sanitized path settles, told by the segments of the path as it was given: those that the
sanitizer keeps stand between separators there too, so what it finds in one of them it found before. -/
namespace OmniagentPlus.CoreContracts
open OmniagentPlus.Foundation

/-- What separates the segments of a path as it is given. -/
def isSeparator (u : UInt16) : Bool := u == PosixPath.slash || u == 0x5C

section Layout
open Regex

def driveName : Regex := seq (unit (anyCase (ranges [('A','Z')]))) (literal ":")

/-- A drive, and something behind it. -/
def opensDrive : List Text → Bool
  | first :: _ :: _ => (sequence [start,driveName,finish]).test first
  | _ => false

/-- `home` or `Users` -/
def homeName : Regex := alt (literalAnyCase "home") (literalAnyCase "Users")

/-- A directory of homes, and in it a name that begins visibly. -/
def passesHome : List Text → Bool
  | directory :: name :: rest =>
    ((sequence [start,homeName,finish]).test directory && name.head?.any fun u => !Text.isSpace u) ||
      passesHome (name :: rest)
  | _ => false

def tokenUnit : UInt16 → Bool := alphanumericAnd "._~+/=-"

/-- What stands in `bearerTokenPattern` before the token. -/
def bearerOpening : Regex := sequence [wordBoundary,literalAnyCase "bearer",atLeast 1 space]

/-- What comes behind a segment. -/
def behind (rest : List Text) : Text := rest.flatMap fun segment => PosixPath.slash :: segment

/-- A bearer token that begins in a segment and may go on over the separators. -/
def carriesBearer : List Text → Bool
  | [] => false
  | segment :: rest =>
    ((bearerOpening.found segment).any fun p => decide (8 ≤ ((p.after ++ behind rest).takeWhile tokenUnit).length)) ||
      carriesBearer rest

/-- What the segments of a path must be like for the path to settle. -/
structure LayoutSettles (ν : Type) [JsNumber ν] (isDatetime : Text → Bool) (segments : List Text) : Prop where
  front : (segments.head?.any fun first => first.head?.any Text.isSpace) = false
  back : (segments.getLast?.any fun last => last.getLast?.any Text.isSpace) = false
  driveless : opensDrive segments = false
  homeless : passesHome segments.tail = false
  dumpless : segments.head?.any envDumpPattern.test = false
  bearerless : carriesBearer segments = false
  json : ∀ value : JsValue ν, encoded ([PosixPath.slash].intercalate segments) = some value →
    visit isDatetime false 64 value (Text.of "$") = []

end Layout
section Separators
open Regex

lemma mem_separators {u : UInt16} (h : isSeparator u = true) : u ∈ [PosixPath.slash,0x5C] := by
  simpa [isSeparator] using h

/-- A property that slashes and backslashes have is one of every separator. -/
lemma of_separator {P : UInt16 → Prop} (hslash : P PosixPath.slash) (hbackslash : P 0x5C) (u : UInt16)
    (h : isSeparator u = true) : P u := by
  obtain rfl | hu := List.mem_cons.mp (mem_separators h)
  · exact hslash
  · rw [List.mem_singleton.mp hu]
    exact hbackslash

lemma local_boundary : wordBoundary.Local isSeparator := local_wordBoundary (of_separator (by decide) (by decide))

lemma local_of_reads {r : Regex} (h : r.readsNone [PosixPath.slash,0x5C] = true) : r.Local isSeparator :=
  local_of_readsNone (fun _ => mem_separators) h

lemma carried_nonSpace : (atLeast 1 nonSpace).Carried isSeparator :=
  carried_atLeast_one (of_separator (by decide) (by decide))

/-- So many members of each of these sequences, behind their assertion, read no separator. -/
lemma members_readNone : ∀ pattern ∈ [(1,apiKeyTokenPattern),(5,authAssignmentPattern),(4,secretEnvAssignmentPattern),
    (2,awsAccessKeyPattern),(6,jwtTokenPattern),(4,authHeaderPattern)],
    firstReadNone [PosixPath.slash,0x5C] pattern.1 (behindFirst 1 pattern.2) = true := by
  simp only [List.forall_mem_cons]
  decide +kernel

/-- Nor is one read in these. -/
lemma parts_readNone : ∀ r ∈ [privateKeyPattern,behindFirst 1 bearerOpening,behindFirst 1 envDumpPattern,literalAnyCase ".recovery",
    homeName,driveName], r.readsNone [PosixPath.slash,0x5C] = true := by
  simp only [List.forall_mem_cons]
  decide +kernel

lemma plain_wholes : ∀ r ∈ [homePathPattern,behindFirst 1 drivePattern], r.Plain := by
  have hreads : ∀ r ∈ [homePathPattern,behindFirst 1 drivePattern], r.readsNone [] = true := by
    simp only [List.forall_mem_cons]
    decide +kernel
  exact fun r hr => plain_of_readsNone [] (hreads r hr)

lemma carried_of_members (n : ℕ) {r : Regex} (h : firstReadNone [PosixPath.slash,0x5C] n r = true)
    (hrest : (behindFirst n r).Carried isSeparator) : r.Carried isSeparator :=
  carried_of_first (fun _ => mem_separators) h hrest

lemma apiKeyToken_carried : apiKeyTokenPattern.Carried isSeparator :=
  .seq local_boundary (carried_of_members 1 (members_readNone (1,apiKeyTokenPattern) (by simp)) local_boundary.carried)

lemma authAssignment_carried : authAssignmentPattern.Carried isSeparator := by
  refine .seq (fun x x' _ _ hx _ => ?_)
    (carried_of_members 5 (members_readNone (5,authAssignmentPattern) (by simp)) carried_nonSpace)
  exact congrArg not (any_eq_of_edge (of_separator (by decide) (by decide)) hx)

lemma secretEnvAssignment_carried : secretEnvAssignmentPattern.Carried isSeparator :=
  .seq local_boundary (carried_of_members 4 (members_readNone (4,secretEnvAssignmentPattern) (by simp)) carried_nonSpace)

lemma awsAccessKey_carried : awsAccessKeyPattern.Carried isSeparator :=
  .seq local_boundary (carried_of_members 2 (members_readNone (2,awsAccessKeyPattern) (by simp)) local_boundary.carried)

lemma jwtToken_carried : jwtTokenPattern.Carried isSeparator :=
  .seq local_boundary (carried_of_members 6 (members_readNone (6,jwtTokenPattern) (by simp)) local_boundary.carried)

lemma authHeader_carried : authHeaderPattern.Carried isSeparator :=
  .seq local_boundary (carried_of_members 4 (members_readNone (4,authHeaderPattern) (by simp)) carried_nonSpace)

lemma privateKey_carried : privateKeyPattern.Carried isSeparator := (local_of_reads (parts_readNone _ (by simp))).carried

lemma bearerOpening_local : bearerOpening.Local isSeparator :=
  ⟨local_boundary,local_of_reads (parts_readNone (behindFirst 1 bearerOpening) (by simp))⟩

lemma envAssignment_local : (behindFirst 1 envDumpPattern).Local isSeparator := local_of_reads (parts_readNone _ (by simp))

/-- Where a segment ends the match of a recovery directory. -/
lemma recoveryEnd_carried {f g : UInt16 → Bool} (hf : ∀ u, isSeparator u = true → f u = true) :
    (oneOf [unit f,finish,unit g]).Carried isSeparator := by
  have hends : ∀ p : Place, (oneOf [unit f,finish,unit g]).ends p ≠ [] ↔ p.after.head?.all (fun u => f u || g u) = true := by
    rintro ⟨before,after⟩
    cases after with
    | nil => simp [oneOf, finish, ends]
    | cons u after => cases hu : f u <;> cases hg : g u <;> simp [oneOf, finish, ends, hu, hg]
  intro p q b a _ hq _ hne
  rw [hends] at hne ⊢
  cases a with
  | cons u a => exact hne
  | nil =>
    have hafter := hq.after
    simp only [within, List.nil_append]
    cases hu : q.after.head? with
    | none => rfl
    | some u =>
      rw [hu] at hafter
      rw [Option.all_some, hf u hafter, Bool.true_or]

lemma homeName_plain : homeName.Plain := plain_of_readsNone _ (parts_readNone _ (by simp))

lemma driveName_plain : driveName.Plain := plain_of_readsNone _ (parts_readNone _ (by simp))

end Separators
section Neighbours
open Regex

/-- What stands around a segment. -/
def around (front rest : List Text) : Place :=
  ⟨(front.flatMap fun segment => segment ++ [PosixPath.slash]).reverse,behind rest⟩

lemma bounded_around (front rest : List Text) : Bounded isSeparator (around front rest) := by
  constructor
  · rcases List.eq_nil_or_concat front with rfl | ⟨front,last,rfl⟩
    · rfl
    · simp [around, isSeparator]
  · cases rest <;> simp [around, behind, isSeparator]

lemma cons_intercalate (segment : Text) (rest : List Text) :
    [PosixPath.slash].intercalate (segment :: rest) = segment ++ behind rest := by
  induction rest generalizing segment with
  | nil => simp [behind]
  | cons next rest ih =>
    rw [List.intercalate_cons_cons, ih]
    simp [behind]

lemma intercalate_segments (text : Text) : [PosixPath.slash].intercalate (PosixPath.segments text) = text :=
  List.intercalate_splitOn PosixPath.slash

lemma intercalate_around (front : List Text) (segment : Text) (rest : List Text) :
    [PosixPath.slash].intercalate (front ++ segment :: rest) =
      (around front rest).before.reverse ++ segment ++ (around front rest).after := by
  induction front with
  | nil => simp [cons_intercalate, around]
  | cons first front ih =>
    rw [List.cons_append, cons_intercalate, behind]
    cases front with
    | nil => simp [around, behind]
    | cons second front =>
      rw [List.cons_append, cons_intercalate] at ih
      rw [List.cons_append, List.flatMap_cons, List.cons_append]
      change first ++ PosixPath.slash :: (second ++ behind _) = _
      rw [ih]
      simp [around]

/-- Every place of a path is in one of its segments. -/
theorem place_in_segment {segments : List Text} (hne : segments ≠ []) {p : Place}
    (hp : p.before.reverse ++ p.after = [PosixPath.slash].intercalate segments) :
    ∃ front rest b a, segments = front ++ (b.reverse ++ a) :: rest ∧ p = within b a (around front rest) := by
  induction segments generalizing p with
  | nil => exact absurd rfl hne
  | cons first segments ih =>
    obtain ⟨before,after⟩ := p
    rw [cons_intercalate] at hp
    obtain ⟨a,hfirst,hafter⟩ | ⟨c,hbefore,hbehind⟩ := List.append_eq_append_iff.mp hp
    · refine ⟨[],segments,before,a,by rw [hfirst]; rfl,?_⟩
      simp only [within, around, List.flatMap_nil, List.reverse_nil, List.append_nil]
      rw [show after = a ++ behind segments from hafter]
    · cases c with
      | nil =>
        refine ⟨[],segments,before,[],?_,?_⟩
        · rw [hbefore]
          simp
        · simp only [within, around, List.flatMap_nil, List.reverse_nil, List.append_nil, List.nil_append]
          rw [show behind segments = after from hbehind]
      | cons u c =>
        cases segments with
        | nil => cases hbehind
        | cons second segments =>
          obtain ⟨rfl,hinner⟩ : PosixPath.slash = u ∧ second ++ behind segments = c ++ after :=
            List.cons.inj hbehind
          have hplace : c.reverse.reverse ++ after = [PosixPath.slash].intercalate (second :: segments) := by
            rw [List.reverse_reverse, cons_intercalate, hinner]
          obtain ⟨front,rest,b,a,hsplit,hwithin⟩ := ih (List.cons_ne_nil _ _) (p := ⟨c.reverse,after⟩) hplace
          have hb : c.reverse = b ++ (around front rest).before := congrArg Place.before hwithin
          have ha : after = a ++ (around front rest).after := congrArg Place.after hwithin
          refine ⟨first :: front,rest,b,a,by rw [hsplit]; rfl,?_⟩
          have hreversed : before = c.reverse ++ PosixPath.slash :: first.reverse := by
            rw [← List.reverse_reverse before, hbefore]
            simp
          rw [hreversed, hb, ha]
          simp [within, around]

/-- A segment that is kept stands between separators or ends in the path as it was given. -/
theorem exists_neighbours {text : Text} (h : PosixPath.Plain (withSlashes text)) {front rest : List Text} {segment : Text}
    (hsplit : PosixPath.plainSegments (withSlashes text) = front ++ segment :: rest) :
    ∃ q, text = q.before.reverse ++ segment ++ q.after ∧ Bounded isSeparator q ∧ (rest = [] ∨ q.after ≠ []) := by
  have hsub := PosixPath.plainSegments_sublist h
  rw [hsplit] at hsub
  obtain ⟨front',tail,hsegments,-,htail⟩ := List.append_sublist_iff.mp hsub
  obtain ⟨between,rest',rfl,hmem,hrest⟩ := List.cons_sublist_iff.mp htail
  obtain ⟨between₁,between₂,rfl⟩ := List.append_of_mem hmem
  have hjoined : withSlashes text = (around (front' ++ between₁) (between₂ ++ rest')).before.reverse ++ segment ++
      (around (front' ++ between₁) (between₂ ++ rest')).after := by
    rw [← intercalate_around, ← intercalate_segments (withSlashes text)]
    rw [hsegments]
    simp
  obtain ⟨head,after,htext,hhead,hafter⟩ := List.map_eq_append_iff.mp hjoined
  obtain ⟨before,segment',rfl,hbefore,hsegment⟩ := List.map_eq_append_iff.mp hhead
  have hin : segment ∈ PosixPath.segments (withSlashes text) := by
    rw [hsegments]
    simp
  have hslash : PosixPath.slash ∉ segment := sep_notMem_of_mem_splitOn hin
  have hsame : segment' = segment := by
    rw [← hsegment]
    refine (withSlashes_eq_self fun hmem => hslash ?_).symm
    rw [← hsegment]
    exact List.mem_map.mpr ⟨0x5C,hmem,rfl⟩
  have hspelled : ∀ u : UInt16, isSeparator (if u = 0x5C then PosixPath.slash else u) = isSeparator u := by
    intro u
    by_cases hu : u = 0x5C
    · rw [if_pos hu, hu]
      rfl
    · rw [if_neg hu]
  have hbounded := bounded_around (front' ++ between₁) (between₂ ++ rest')
  have hlast : before.getLast?.map (fun u => if u = 0x5C then PosixPath.slash else u) =
      (around (front' ++ between₁) (between₂ ++ rest')).before.head? := by
    rw [← List.getLast?_map, hbefore, List.getLast?_reverse]
  refine ⟨⟨before.reverse,after⟩,by rw [htext, hsame, List.reverse_reverse],⟨?_,?_⟩,?_⟩
  · have hall := hbounded.before
    rw [← hlast] at hall
    simpa [hspelled, Option.all_map, Function.comp_def] using hall
  · have hall := hbounded.after
    rw [← hafter, List.head?_map] at hall
    simpa [hspelled, Option.all_map, Function.comp_def] using hall
  · rcases eq_or_ne rest [] with hnil | hne
    · exact .inl hnil
    · refine .inr fun hempty => ?_
      have hempty : after = [] := hempty
      rw [hempty] at hafter
      have hrest' : rest' ≠ [] := fun hnil => hne (List.sublist_nil.mp (hnil ▸ hrest))
      obtain ⟨next,rest',rfl⟩ := List.exists_cons_of_ne_nil hrest'
      simp [around, behind] at hafter

/-- What stays in a segment, or needs no more than something behind it, is found before where it is
found in the settled path. -/
theorem test_of_settled {text : Text} (h : PosixPath.Plain (withSlashes text)) {r : Regex} (hr : r.Carried isSeparator)
    (hfound : r.test (PosixPath.settled (withSlashes text)) = true) : r.test text = true := by
  obtain ⟨p,hp,hne⟩ := test_iff.mp hfound
  obtain ⟨front,rest,b,a,hsplit,rfl⟩ := place_in_segment (by rw [← PosixPath.segments_settled]; exact PosixPath.segments_ne_nil _) hp
  obtain ⟨q,htext,hbounded,hback⟩ := exists_neighbours h hsplit
  refine test_iff.mpr ⟨within b a q,?_,hr _ q b a (bounded_around front rest) hbounded (hback.imp_left fun hnil => ?_) hne⟩
  · rw [htext]
    simp [within]
  · rw [hnil]
    rfl

lemma bounded_nil : Bounded isSeparator ⟨[],[]⟩ := ⟨rfl,rfl⟩

theorem privateRecovery_of_settled {text : Text} (h : PosixPath.Plain (withSlashes text))
    (hfound : privateRecoveryReferencePattern.test (PosixPath.settled (withSlashes text)) = true) :
    privateRecoveryReferencePattern.test text = true := by
  obtain ⟨p,hp,hbehind,hne⟩ := test_behind.mp hfound
  obtain ⟨front,rest,b,a,hsplit,rfl⟩ := place_in_segment (by rw [← PosixPath.segments_settled]; exact PosixPath.segments_ne_nil _) hp
  obtain ⟨q,htext,hbounded,hback⟩ := exists_neighbours h hsplit
  refine test_behind.mpr ⟨within b a q,by rw [htext]; simp [within],?_,?_⟩
  · cases b with
    | cons u b => exact hbehind
    | nil =>
      have hbefore := hbounded.before
      simp only [within, List.nil_append]
      cases hu : q.before.head? with
      | none => rfl
      | some u =>
        rw [hu] at hbefore
        exact of_separator (P := fun u => (!alphanumericAnd "_.-" u) = true) (by decide) (by decide) u hbefore
  · refine Carried.seq (local_of_reads (parts_readNone (literalAnyCase ".recovery") (by simp)))
      (recoveryEnd_carried (of_separator (by decide) (by decide))) _ q b a (bounded_around front rest) hbounded
      (hback.imp_left fun hnil => ?_) hne
    rw [hnil]
    rfl

/-- An environment dump at the start of a line is at the start of the first segment, or was one before. -/
theorem envDump_of_settled {text : Text} (h : PosixPath.Plain (withSlashes text))
    (hfound : envDumpPattern.test (PosixPath.settled (withSlashes text)) = true) :
    (PosixPath.plainSegments (withSlashes text)).head?.any envDumpPattern.test = true ∨ envDumpPattern.test text = true := by
  obtain ⟨p,hp,hbehind,hne⟩ := test_behind.mp hfound
  obtain ⟨front,rest,b,a,hsplit,rfl⟩ := place_in_segment (by rw [← PosixPath.segments_settled]; exact PosixPath.segments_ne_nil _) hp
  obtain ⟨q,htext,hbounded,-⟩ := exists_neighbours h hsplit
  cases b with
  | cons u b =>
    refine .inr (test_behind.mpr ⟨within (u :: b) a q,by rw [htext]; simp [within],hbehind,?_⟩)
    exact envAssignment_local.ends_ne_nil (bounded_around front rest) hbounded hne
  | nil =>
    rcases List.eq_nil_or_concat front with rfl | ⟨front,last,rfl⟩
    · left
      rw [hsplit]
      refine test_behind.mpr ⟨within [] a ⟨[],[]⟩,by simp [within],rfl,?_⟩
      exact envAssignment_local.ends_ne_nil (bounded_around [] rest) bounded_nil hne
    · have hslash : (within [] a (around (front.concat last) rest)).before.head? = some PosixPath.slash := by
        simp [within, around]
      rw [hslash] at hbehind
      exact absurd hbehind (by decide)

theorem envDump_intercalate {first : Text} (rest : List Text) (hfound : envDumpPattern.test first = true) :
    envDumpPattern.test ([PosixPath.slash].intercalate (first :: rest)) = true := by
  obtain ⟨⟨before,after⟩,rfl,hbehind,hne⟩ := test_behind.mp hfound
  refine test_behind.mpr ⟨within before after (around [] rest),?_,?_,?_⟩
  · simp [cons_intercalate, within, around]
  · simpa [within, around] using hbehind
  · have hplace : within before after ⟨[],[]⟩ = ⟨before,after⟩ := by simp [within]
    refine envAssignment_local.ends_ne_nil bounded_nil (bounded_around [] rest) ?_
    rw [hplace]
    exact hne

section Bearer

/-- The matches in the segments of a path of what stays in one. -/
theorem mem_found_intercalate {r : Regex} (hr : r.Local isSeparator) {segments : List Text} (hne : segments ≠ []) {m : Place} :
    m ∈ r.found ([PosixPath.slash].intercalate segments) ↔ ∃ front segment rest, segments = front ++ segment :: rest ∧
      ∃ n ∈ r.found segment, m = within n.before n.after (around front rest) := by
  constructor
  · intro hm
    obtain ⟨p,hp,hm⟩ := mem_found.mp hm
    obtain ⟨front,rest,b,a,hsplit,rfl⟩ := place_in_segment hne hp
    obtain ⟨b',a',rfl,hm'⟩ := ends_within (bounded_around front rest) bounded_nil hr hm
    exact ⟨front,_,rest,hsplit,_,mem_found.mpr ⟨within b a ⟨[],[]⟩,by simp [within],hm'⟩,by simp [within]⟩
  · rintro ⟨front,segment,rest,rfl,n,hn,rfl⟩
    obtain ⟨⟨b,a⟩,rfl,hends⟩ := mem_found.mp hn
    have halone : n ∈ r.ends (within b a ⟨[],[]⟩) := by simpa [within] using hends
    obtain ⟨b',a',rfl,hm⟩ := ends_within bounded_nil (bounded_around front rest) hr halone
    refine mem_found.mpr ⟨_,?_,by simpa [within] using hm⟩
    rw [intercalate_around]
    simp

lemma carriesBearer_iff {segments : List Text} : carriesBearer segments = true ↔
    ∃ front segment rest, segments = front ++ segment :: rest ∧
      ∃ n ∈ bearerOpening.found segment, 8 ≤ ((n.after ++ behind rest).takeWhile tokenUnit).length := by
  induction segments with
  | nil => simp [carriesBearer]
  | cons first segments ih =>
    simp only [carriesBearer, Bool.or_eq_true, List.any_eq_true, decide_eq_true_eq, ih]
    constructor
    · rintro (hfirst | ⟨front,segment,rest,rfl,hn⟩)
      · exact ⟨[],first,segments,rfl,hfirst⟩
      · exact ⟨first :: front,segment,rest,rfl,hn⟩
    · rintro ⟨front,segment,rest,hsplit,hn⟩
      cases front with
      | nil =>
        obtain ⟨rfl,rfl⟩ := List.cons.inj hsplit
        exact .inl hn
      | cons first' front =>
        obtain ⟨rfl,rfl⟩ := List.cons.inj hsplit
        exact .inr ⟨front,segment,rest,rfl,hn⟩

/-- A bearer token is in a path where one begins in a segment and goes on. -/
theorem bearerToken_intercalate {segments : List Text} (hne : segments ≠ []) :
    bearerTokenPattern.test ([PosixPath.slash].intercalate segments) = carriesBearer segments := by
  have hends : ∀ p : Place, bearerTokenPattern.ends p ≠ [] ↔
      ∃ m ∈ bearerOpening.ends p, 8 ≤ (m.after.takeWhile tokenUnit).length := by
    intro p
    simp only [bearerTokenPattern, bearerOpening, Regex.sequence, ends_seq_ne_nil, mem_ends_seq, ends_atLeast_unit_ne_nil]
    constructor
    · rintro ⟨m₁,hm₁,m₂,hm₂,m₃,hm₃,hne⟩
      exact ⟨m₃,⟨m₁,hm₁,m₂,hm₂,hm₃⟩,hne⟩
    · rintro ⟨m₃,⟨m₁,hm₁,m₂,hm₂,hm₃⟩,hne⟩
      exact ⟨m₁,hm₁,m₂,hm₂,m₃,hm₃,hne⟩
  rw [Bool.eq_iff_iff, carriesBearer_iff, test_iff]
  simp only [hends]
  constructor
  · rintro ⟨p,hp,m,hm,hlong⟩
    obtain ⟨front,segment,rest,hsplit,n,hn,rfl⟩ := (mem_found_intercalate bearerOpening_local hne).mp (mem_found.mpr ⟨p,hp,hm⟩)
    exact ⟨front,segment,rest,hsplit,n,hn,hlong⟩
  · rintro ⟨front,segment,rest,hsplit,n,hn,hlong⟩
    obtain ⟨p,hp,hm⟩ := mem_found.mp ((mem_found_intercalate bearerOpening_local hne).mpr ⟨front,segment,rest,hsplit,n,hn,rfl⟩)
    exact ⟨p,hp,_,hm,hlong⟩

end Bearer

section Spans
open PosixPath (segments)

lemma segments_append_slash_cons (before after : Text) : segments (before ++ PosixPath.slash :: after) = segments before ++ segments after :=
  List.splitOn_append_cons_self before after

lemma segments_eq_singleton {text : Text} (h : PosixPath.slash ∉ text) : segments text = [text] := by
  have hjoined : ([PosixPath.slash].intercalate [text]).splitOn PosixPath.slash = [text] :=
    List.splitOn_intercalate PosixPath.slash (by simpa using h) (by simp)
  rwa [List.intercalate_singleton] at hjoined

lemma segments_cons_of_ne {u : UInt16} (hu : u ≠ PosixPath.slash) (text : Text) :
    ∃ first rest, segments (u :: text) = (u :: first) :: rest := by
  obtain ⟨first,rest,hsplit⟩ := List.exists_cons_of_ne_nil (PosixPath.segments_ne_nil text)
  refine ⟨first,rest,?_⟩
  rw [PosixPath.segments, List.splitOn_cons_eq_if_modifyHead, if_neg (by simpa using hu)]
  change List.modifyHead _ (segments text) = _
  rw [hsplit, List.modifyHead_cons]

/-- An empty segment comes last in a settled path. -/
lemma eq_nil_of_empty_segment {path : Text} {front rest : List Text}
    (h : PosixPath.plainSegments path = front ++ [] :: rest) : rest = [] := by
  obtain ⟨named,-,hnamed,-,heq⟩ := PosixPath.plainSegments_spec path
  rw [heq] at h
  rcases List.eq_nil_or_concat rest with rfl | ⟨rest,last,rfl⟩
  · rfl
  have hin : ([] : Text) ∈ named := by
    split_ifs at h
    · have hdrop := congrArg List.dropLast h
      rw [List.dropLast_concat, List.concat_eq_append, ← List.cons_append, ← List.append_assoc, List.dropLast_concat] at hdrop
      rw [hdrop]
      simp
    · rw [List.append_nil] at h
      rw [h]
      simp
  exact absurd rfl (hnamed [] hin).1

/-- No user information: a settled path has no two slashes in a row. -/
theorem urlUserinfo_settled (path : Text) : urlUserinfoPattern.test (PosixPath.settled path) = false := by
  rw [← Bool.not_eq_true, test_iff]
  rintro ⟨p,hp,hne⟩
  obtain ⟨m₁,hm₁,hne⟩ := ends_seq_ne_nil.mp hne
  obtain ⟨m₂,hm₂,hne⟩ := ends_seq_ne_nil.mp hne
  obtain ⟨m₃,hm₃,hne⟩ := ends_seq_ne_nil.mp hne
  obtain ⟨m₄,hm₄,-⟩ := ends_seq_ne_nil.mp hne
  have htext : m₃.before.reverse ++ m₃.after = PosixPath.settled path := by
    rw [ends_text _ _ _ hm₃, ends_text _ _ _ hm₂, ends_text _ _ _ hm₁, hp]
  obtain ⟨part,⟨hafter,-⟩,hpart⟩ := (mem_ends_iff (plain_literalUnits (Text.of "://")) m₃ m₄).mp hm₄
  rw [matches_literalUnits.mp hpart] at hafter
  have hsplit : PosixPath.plainSegments path = segments (m₃.before.reverse ++ Text.of ":") ++ [] :: segments m₄.after := by
    rw [← PosixPath.segments_settled, ← htext, hafter]
    have hshape : m₃.before.reverse ++ (Text.of "://" ++ m₄.after) =
        (m₃.before.reverse ++ Text.of ":") ++ PosixPath.slash :: ([] ++ PosixPath.slash :: m₄.after) := by
      rw [List.append_assoc]
      rfl
    rw [hshape, segments_append_slash_cons, segments_append_slash_cons]
    rfl
  exact PosixPath.segments_ne_nil _ (eq_nil_of_empty_segment hsplit)

lemma passesHome_iff {segments : List Text} : passesHome segments = true ↔ ∃ front directory name rest,
    segments = front ++ directory :: name :: rest ∧ homeName.Matches directory ∧
      (name.head?.any fun u => !Text.isSpace u) = true := by
  induction segments with
  | nil => simp [passesHome]
  | cons directory segments ih =>
    cases segments with
    | nil =>
      simp only [passesHome, Bool.false_eq_true, false_iff]
      rintro ⟨front,_,_,_,hsplit,-⟩
      cases front with
      | nil => simp at hsplit
      | cons _ front => cases front <;> simp at hsplit
    | cons name segments =>
      simp only [passesHome, Bool.or_eq_true, Bool.and_eq_true, test_anchored homeName_plain, ih]
      constructor
      · rintro (⟨hdirectory,hname⟩ | ⟨front,directory',name',rest,hsplit,hhome⟩)
        · exact ⟨[],directory,name,segments,rfl,hdirectory,hname⟩
        · exact ⟨directory :: front,directory',name',rest,by rw [hsplit]; rfl,hhome⟩
      · rintro ⟨front,directory',name',rest,hsplit,hdirectory,hname⟩
        cases front with
        | nil =>
          obtain ⟨rfl,htail⟩ := List.cons.inj hsplit
          obtain ⟨rfl,-⟩ := List.cons.inj htail
          exact .inl ⟨hdirectory,hname⟩
        | cons first front =>
          exact .inr ⟨front,directory',name',rest,(List.cons.inj hsplit).2,hdirectory,hname⟩

/-- A path with a home directory in it, from its slash on. -/
lemma passesHome_of_split (before name : Text) {directory : Text} (hdirectory : homeName.Matches directory) {u : UInt16}
    (hu : u ≠ PosixPath.slash) (hvisible : Text.isSpace u = false) :
    passesHome (segments (before ++ PosixPath.slash :: (directory ++ PosixPath.slash :: u :: name))).tail = true := by
  have hslash : PosixPath.slash ∉ directory :=
    notMem_of_matches _ (parts_readNone homeName (by simp)) hdirectory List.mem_cons_self
  obtain ⟨first,rest,hname⟩ := segments_cons_of_ne hu name
  rw [segments_append_slash_cons, segments_append_slash_cons, segments_eq_singleton hslash, hname,
    List.tail_append_of_ne_nil (PosixPath.segments_ne_nil before)]
  exact passesHome_iff.mpr ⟨_,directory,_,rest,rfl,hdirectory,by simpa using hvisible⟩

lemma slash_of_among {u : UInt16} (h : among "\\/" u = true) (hu : u ≠ 0x5C) : u = PosixPath.slash := by
  have hmem : u = 0x5C ∨ u = PosixPath.slash := by simpa [among, Text.of, Text.ofChar, PosixPath.slash] using h
  exact hmem.resolve_left hu

/-- A home directory is in a path where a segment behind the first is one. -/
theorem homePath_eq {text : Text} (h : (0x5C : UInt16) ∉ text) :
    homePathPattern.test text = passesHome (segments text).tail := by
  have hplain : homePathPattern.Plain := plain_wholes _ (by simp)
  rw [Bool.eq_iff_iff, test_plain_iff hplain]
  constructor
  · rintro ⟨before,part,after,rfl,hpart⟩
    obtain ⟨s₁,_,hs₁,⟨directory,_,hdirectory,⟨s₂,name,hs₂,hname,rfl⟩,rfl⟩,rfl⟩ |
      ⟨drive,_,hdrive,⟨colon,_,hcolon,⟨s₁,_,hs₁,⟨directory,_,hdirectory,⟨s₂,name,hs₂,hname,rfl⟩,rfl⟩,rfl⟩,rfl⟩,rfl⟩ := hpart
    · obtain rfl : s₁ = [PosixPath.slash] := matches_literalUnits.mp hs₁
      obtain rfl : s₂ = [PosixPath.slash] := matches_literalUnits.mp hs₂
      obtain ⟨hne,hvisible⟩ := matches_atLeast_one.mp hname
      obtain ⟨u,name,rfl⟩ := List.exists_cons_of_ne_nil hne
      have hu := hvisible u List.mem_cons_self
      simp only [Bool.not_eq_true', Bool.or_eq_false_iff] at hu
      have hpasses := passesHome_of_split before (name ++ after) hdirectory (u := u)
        (by rintro rfl; exact absurd hu.1 (by decide)) hu.2
      simpa using hpasses
    · obtain ⟨e₁,he₁,rfl⟩ := hs₁
      obtain ⟨e₂,he₂,rfl⟩ := hs₂
      obtain rfl : e₁ = PosixPath.slash := slash_of_among he₁ fun he => h (by simp [he])
      obtain rfl : e₂ = PosixPath.slash := slash_of_among he₂ fun he => h (by simp [he])
      obtain ⟨hne,hvisible⟩ := matches_atLeast_one.mp hname
      obtain ⟨u,name,rfl⟩ := List.exists_cons_of_ne_nil hne
      have hu := hvisible u List.mem_cons_self
      simp only [Bool.not_eq_true', Bool.or_eq_false_iff] at hu
      have hpasses := passesHome_of_split (before ++ drive ++ colon) (name ++ after)
        (show homeName.Matches directory from .inr hdirectory) (u := u) (by rintro rfl; exact absurd hu.1 (by decide)) hu.2
      simpa using hpasses
  · intro hpasses
    obtain ⟨front,directory,name,rest,htail,hdirectory,hname⟩ := passesHome_iff.mp hpasses
    obtain ⟨first,tail,hsegments⟩ := List.exists_cons_of_ne_nil (PosixPath.segments_ne_nil text)
    rw [hsegments, List.tail_cons] at htail
    cases name with
    | nil => cases hname
    | cons u name =>
      have hin : u :: name ∈ segments text := by
        rw [hsegments, htail]
        simp
      have hu : u ≠ PosixPath.slash := fun hu => sep_notMem_of_mem_splitOn hin (hu ▸ List.mem_cons_self)
      have hspace : Text.isSpace u = false := by simpa using hname
      have htext : text = first ++ behind front ++ PosixPath.slash :: (directory ++ behind ((u :: name) :: rest)) := by
        rw [← cons_intercalate, ← cons_intercalate, ← intercalate_append PosixPath.slash (List.cons_ne_nil _ _) (List.cons_ne_nil _ _),
          ← intercalate_segments text, hsegments, htail]
        rfl
      have hvisible : (!(among "/" u || Text.isSpace u)) = true := by
        rw [hspace, Bool.or_false]
        simpa [among, Text.of, Text.ofChar, PosixPath.slash] using hu
      refine ⟨first ++ behind front,PosixPath.slash :: (directory ++ PosixPath.slash :: [u]),name ++ behind rest,?_,.inl ?_⟩
      · rw [htext]
        simp [behind]
      · exact ⟨[PosixPath.slash],_,matches_literalUnits.mpr rfl,⟨directory,_,hdirectory,⟨[PosixPath.slash],[u],matches_literalUnits.mpr rfl,
          matches_atLeast_one.mpr ⟨by simp,by simpa using hvisible⟩,rfl⟩,rfl⟩,rfl⟩

lemma opensDrive_iff {segments : List Text} : opensDrive segments = true ↔
    ∃ first second rest, segments = first :: second :: rest ∧ driveName.Matches first := by
  rcases segments with _ | ⟨first,_ | ⟨second,rest⟩⟩
  · simp [opensDrive]
  · simp [opensDrive]
  · simp only [opensDrive, test_anchored driveName_plain, List.cons.injEq]
    constructor
    · exact fun hdrive => ⟨first,second,rest,⟨rfl,rfl,rfl⟩,hdrive⟩
    · rintro ⟨_,_,_,⟨rfl,-,-⟩,hdrive⟩
      exact hdrive

/-- A path begins with a drive where its first segment is one and others follow. -/
theorem drive_eq (text : Text) : drivePattern.test text = opensDrive (segments text) := by
  rw [Bool.eq_iff_iff, opensDrive_iff]
  refine (test_from_start (plain_wholes (behindFirst 1 drivePattern) (by simp))).trans ?_
  constructor
  · rintro ⟨_,after,rfl,letter,mark,hletter,hmark,rfl⟩
    have hdrive : driveName.Matches (letter ++ Text.of ":") := ⟨letter,_,hletter,matches_literalUnits.mpr rfl,rfl⟩
    have hslash : PosixPath.slash ∉ letter ++ Text.of ":" :=
      notMem_of_matches _ (parts_readNone driveName (by simp)) hdrive List.mem_cons_self
    obtain ⟨second,rest,hafter⟩ := List.exists_cons_of_ne_nil (PosixPath.segments_ne_nil after)
    have hshape : letter ++ mark ++ after = (letter ++ Text.of ":") ++ PosixPath.slash :: after := by
      rw [matches_literalUnits.mp hmark, List.append_assoc, List.append_assoc]
      rfl
    exact ⟨_,second,rest,by rw [hshape, segments_append_slash_cons, segments_eq_singleton hslash, hafter]; rfl,hdrive⟩
  · rintro ⟨first,second,rest,hsegments,letter,colon,hletter,hcolon,rfl⟩
    have htext := intercalate_segments text
    rw [hsegments, cons_intercalate, matches_literalUnits.mp hcolon] at htext
    refine ⟨letter ++ Text.of ":/",second ++ behind rest,?_,letter,_,hletter,matches_literalUnits.mpr rfl,rfl⟩
    rw [← htext, List.append_assoc, List.append_assoc]
    rfl

end Spans
end Neighbours
section Settles
variable {ν : Type} [JsNumber ν] {isDatetime : Text → Bool}

lemma textLeaks_eq_nil {text path : Text} : textLeaks false text path = [] ↔
    privateRecoveryReferencePattern.test text = false ∧ envDumpPattern.test text = false ∧
      ∀ rule ∈ secretTextPatterns, rule.2.test text = false := by
  simp only [textLeaks, List.append_eq_nil_iff, List.flatMap_eq_nil_iff, leakWhen_eq_nil, Bool.false_and, Bool.not_false,
    Bool.true_and, and_assoc]

/-- A text has no leaks where it has none itself, nor the JSON in it. -/
lemma textMetadataLeaks_eq_nil {text : Text} : textMetadataLeaks ν isDatetime text false = [] ↔
    textLeaks false text (Text.of "$") = [] ∧
      ∀ value : JsValue ν, encoded text = some value → visit isDatetime false 64 value (Text.of "$") = [] := by
  rw [textMetadataLeaks, scanMetadataLeaks, visit, List.append_eq_nil_iff]
  cases encoded (ν := ν) text <;> simp

lemma first_plainSegment (path : Text) : ∃ first rest, PosixPath.plainSegments path = first :: rest ∧ first ≠ [] := by
  obtain ⟨front,hne,hfront,-,heq⟩ := PosixPath.plainSegments_spec path
  obtain ⟨first,front,rfl⟩ := List.exists_cons_of_ne_nil hne
  exact ⟨first,_,heq,(hfront first List.mem_cons_self).1⟩

/-- A settled path has white space at an end where its first segment begins with it or its last ends in it. -/
theorem settled_trim_iff (path : Text) : (PosixPath.settled path).trim = PosixPath.settled path ↔
    ((PosixPath.plainSegments path).head?.any fun first => first.head?.any Text.isSpace) = false ∧
      ((PosixPath.plainSegments path).getLast?.any fun last => last.getLast?.any Text.isSpace) = false := by
  rw [Text.trim_eq_self_iff]
  refine and_congr ?_ ?_
  · obtain ⟨first,rest,heq,hne⟩ := first_plainSegment path
    obtain ⟨u,first,rfl⟩ := List.exists_cons_of_ne_nil hne
    rw [PosixPath.settled, heq, cons_intercalate]
    rfl
  · rcases List.eq_nil_or_concat (PosixPath.plainSegments path) with hnil | ⟨front,last,heq⟩
    · rw [PosixPath.settled, hnil]
      rfl
    · rw [PosixPath.settled, heq, List.concat_eq_append, intercalate_around, List.getLast?_concat]
      rcases List.eq_nil_or_concat last with rfl | ⟨last,u,rfl⟩
      · rcases List.eq_nil_or_concat front with rfl | ⟨front,other,rfl⟩
        · rfl
        · have hslash : Text.isSpace PosixPath.slash = false := by decide
          simp [around, behind, hslash]
      · simp [around, behind]

/-- The settled form of an accepted path keeps clean exactly where the layout of its segments lets it. -/
theorem keepsClean_iff {pathValue : Text} (h : AcceptedPath ν isDatetime pathValue) :
    KeepsClean ν isDatetime (PosixPath.settled (withSlashes pathValue.trim)) ↔
      LayoutSettles ν isDatetime (PosixPath.plainSegments (withSlashes pathValue.trim)) := by
  have hne : PosixPath.plainSegments (withSlashes pathValue.trim) ≠ [] := by
    rw [← PosixPath.segments_settled]
    exact PosixPath.segments_ne_nil _
  have hbackslash : (0x5C : UInt16) ∉ PosixPath.settled (withSlashes pathValue.trim) := fun hmem =>
    backslash_notMem_withSlashes _ ((PosixPath.settled_sublist h.plain).subset hmem)
  have hdrive := drive_eq (PosixPath.settled (withSlashes pathValue.trim))
  have hhome := homePath_eq hbackslash
  rw [PosixPath.segments_settled] at hdrive hhome
  have hbearer := bearerToken_intercalate hne
  constructor
  · rintro ⟨htrim,hdriveless,hclean⟩
    obtain ⟨hfront,hback⟩ := (settled_trim_iff _).mp htrim
    obtain ⟨htext,hjson⟩ := textMetadataLeaks_eq_nil.mp hclean
    obtain ⟨-,hdump,hsecret⟩ := textLeaks_eq_nil.mp htext
    refine ⟨hfront,hback,hdrive ▸ hdriveless,?_,?_,?_,hjson⟩
    · rw [← hhome]
      exact hsecret (.homePath,homePathPattern) (by simp [secretTextPatterns])
    · obtain ⟨first,rest,heq,-⟩ := first_plainSegment (withSlashes pathValue.trim)
      rw [heq, List.head?_cons, Option.any_some, ← Bool.not_eq_true]
      intro hfirst
      have hfound := envDump_intercalate rest hfirst
      rw [PosixPath.settled, heq, hfound] at hdump
      cases hdump
    · rw [← hbearer]
      exact hsecret (.bearerToken,bearerTokenPattern) (by simp [secretTextPatterns])
  · rintro ⟨hfront,hback,hdriveless,hhomeless,hdumpless,hbearerless,hjson⟩
    obtain ⟨hrecovery,hdump,hsecret⟩ := textLeaks_eq_nil.mp (textMetadataLeaks_eq_nil.mp h.clean).1
    have hkept : ∀ {r : Regex}, r.Carried isSeparator → r.test pathValue.trim = false →
        r.test (PosixPath.settled (withSlashes pathValue.trim)) = false := fun hr hfalse =>
      Bool.eq_false_iff.mpr fun hfound => by simp [test_of_settled h.plain hr hfound] at hfalse
    refine ⟨(settled_trim_iff _).mpr ⟨hfront,hback⟩,hdrive.trans hdriveless,
      textMetadataLeaks_eq_nil.mpr ⟨textLeaks_eq_nil.mpr ⟨?_,?_,?_⟩,hjson⟩⟩
    · refine Bool.eq_false_iff.mpr fun hfound => ?_
      simp [privateRecovery_of_settled h.plain hfound] at hrecovery
    · refine Bool.eq_false_iff.mpr fun hfound => ?_
      obtain hfirst | hbefore := envDump_of_settled h.plain hfound
      · simp [hfirst] at hdumpless
      · simp [hbefore] at hdump
    · simp only [secretTextPatterns, List.forall_mem_cons] at hsecret ⊢
      obtain ⟨-,hapiKey,hauth,henv,hprivate,haws,hjwt,hheader,-,-,-⟩ := hsecret
      exact ⟨hbearer.trans hbearerless,hkept apiKeyToken_carried hapiKey,hkept authAssignment_carried hauth,
        hkept secretEnvAssignment_carried henv,hkept privateKey_carried hprivate,hkept awsAccessKey_carried haws,
        hkept jwtToken_carried hjwt,hkept authHeader_carried hheader,urlUserinfo_settled _,hhome.trans hhomeless,
        List.forall_mem_nil _⟩

/-- The result of sanitizing a path is accepted again unchanged, relative, inside and clean exactly
where the layout of its segments, as the path was given, lets it. -/
theorem sanitizeMetadataPath_settles_iff {pathValue path : Text}
    (h : sanitizeMetadataPath ν isDatetime pathValue = .ok path) :
    (sanitizeMetadataPath ν isDatetime path = .ok path ∧ IsRelative path ∧
      Text.of ".." ∉ PosixPath.segments path ∧ textMetadataLeaks ν isDatetime path false = []) ↔
      LayoutSettles ν isDatetime (PosixPath.plainSegments (withSlashes pathValue.trim)) := by
  obtain ⟨haccepted,rfl⟩ := sanitizeMetadataPath_eq_ok.mp h
  rw [← keepsClean_iff haccepted]
  constructor
  · rintro ⟨hagain,⟨-,hdrive⟩,-,hclean⟩
    obtain ⟨hsettled,hsame⟩ := sanitizeMetadataPath_eq_ok.mp hagain
    exact ⟨trimmed_of_settled hsettled.plain hsame,hdrive,hclean⟩
  · intro hkeeps
    have hplain := PosixPath.plain_settled haccepted.plain
    exact ⟨haccepted.settles hkeeps,⟨hplain.relative,hkeeps.driveless⟩,hplain.inside,hkeeps.clean⟩

theorem sanitizeMetadataPath_settles_iff_source :
    sanitizeMetadataPath ℤ (fun _ => false) (Text.of "./src\\lib//a.ts") = .ok (Text.of "src/lib/a.ts") ∧
      sanitizeMetadataPath ℤ (fun _ => false) (Text.of "src/lib/a.ts") = .ok (Text.of "src/lib/a.ts") :=
  have h : sanitizeMetadataPath ℤ (fun _ => false) (Text.of "./src\\lib//a.ts") = .ok (Text.of "src/lib/a.ts") := by
    decide +kernel
  have hsettles : LayoutSettles ℤ (fun _ => false) (["src","lib","a.ts"].map Text.of) := by
    refine ⟨by decide,by decide,by decide +kernel,by decide +kernel,by decide +kernel,by decide +kernel,?_⟩
    intro value hvalue
    cases hvalue
  ⟨h,((sanitizeMetadataPath_settles_iff h).mpr hsettles).1⟩

/-- A dot in front hides a drive. -/
theorem sanitizeMetadataPath_unsettled : ¬∀ pathValue path : Text,
    sanitizeMetadataPath ℤ (fun _ => false) pathValue = .ok path →
      sanitizeMetadataPath ℤ (fun _ => false) path = .ok path ∧ IsRelative path ∧
        Text.of ".." ∉ PosixPath.segments path ∧ textMetadataLeaks ℤ (fun _ => false) path false = [] := by
  intro h
  have hdrive := h (Text.of "./C:/x") (Text.of "C:/x") (by decide +kernel)
  exact absurd hdrive.2.1.2 (by decide +kernel)

end Settles
end OmniagentPlus.CoreContracts
