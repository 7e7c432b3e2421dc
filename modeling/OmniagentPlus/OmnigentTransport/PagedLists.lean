import OmniagentPlus.Foundation.MovingPages
import OmniagentPlus.OmnigentTransport.HistoryLifecycle
import OmniagentPlus.OmnigentTransport.HttpClient

/-! Lists over the pages of a server whose rows come and go between the requests. -/
namespace OmniagentPlus.OmnigentTransport
open OmniagentPlus.Foundation OmniagentPlus.CoreContracts
namespace OmnigentHttpClient

section Rows
variable {ν : Type}

def recordId (row : JsonRecord ν) : Text := (Json.asString (Json.field row "id")).getD []

lemma rowRecord_object {kind : String} {row record : JsonRecord ν} (h : rowRecord kind (.object row) = .ok record) :
    record = row := by
  cases h
  rfl

lemma requiredString_id {row : JsonRecord ν} {id : Text} (h : requiredString row "id" = .ok id) :
    recordId row = id ∧ id ≠ [] := by
  unfold requiredString at h
  cases htext : Text.truthy (Json.asString (Json.field row "id")) with
  | none =>
    rw [htext] at h
    cases h
  | some value =>
    rw [htext] at h
    cases h
    obtain ⟨hstring,hne⟩ := Text.truthy_eq_some.mp htext
    exact ⟨by rw [recordId, hstring, Option.getD_some],hne⟩

/-- Where checks are passed, the value is handed on. -/
def Returns (row : JsonRecord ν) (x : Except (HttpFailure ν) (JsonRecord ν)) : Prop := ∀ r, x = .ok r → r = row

lemma Returns.eq {row r : JsonRecord ν} {x : Except (HttpFailure ν) (JsonRecord ν)} (h : Returns row x) (hr : x = .ok r) :
    r = row := h r hr

lemma returns_bind {α : Type} {row : JsonRecord ν} {x : Except (HttpFailure ν) α}
    {f : α → Except (HttpFailure ν) (JsonRecord ν)} (h : ∀ a, Returns row (f a)) : Returns row (x >>= f) := by
  intro r hr
  obtain ⟨a,-,ha⟩ := except_bind_eq_ok.mp hr
  exact h a r ha

lemma returns_pure {row : JsonRecord ν} : Returns row (pure row) := by
  intro r hr
  cases hr
  rfl

variable [JsNumber ν]

/-- What the lists ask of their rows. -/
def pagedNormalizers : List (Json ν → Except (HttpFailure ν) (JsonRecord ν)) :=
  [normalizeSessionListItem,normalizeChildSessionSummary,normalizeConversationItem]

/-- A row that is let through is handed on as it is, and has an id. -/
theorem normalized_row {normalizeRow : Json ν → Except (HttpFailure ν) (JsonRecord ν)} (hmem : normalizeRow ∈ pagedNormalizers)
    {row r : JsonRecord ν} (h : normalizeRow (.object row) = .ok r) :
    normalizeRow (.object row) = .ok row ∧ recordId row ≠ [] := by
  have hsame : r = row ∧ recordId row ≠ [] := by
    simp only [pagedNormalizers, List.mem_cons, List.not_mem_nil, or_false] at hmem
    obtain rfl | rfl | rfl := hmem
    all_goals
      obtain ⟨record,hrecord,h⟩ := except_bind_eq_ok.mp h
      obtain ⟨id,hid,h⟩ := except_bind_eq_ok.mp h
      cases rowRecord_object hrecord
      refine ⟨?_,(requiredString_id hid).1 ▸ (requiredString_id hid).2⟩
      refine Returns.eq ?_ h
    · exact returns_bind fun _ => returns_bind fun _ => returns_bind fun _ => returns_bind fun _ => returns_bind fun _ =>
        returns_pure
    · exact returns_bind fun _ => returns_bind fun _ => returns_bind fun _ => returns_bind fun _ => returns_bind fun _ =>
        returns_bind fun _ => returns_pure
    · exact returns_bind fun _ => returns_bind fun _ => returns_bind fun _ => returns_bind fun _ => returns_pure
  obtain ⟨rfl,hne⟩ := hsame
  exact ⟨h,hne⟩

omit [JsNumber ν] in
lemma mapM_objects {normalizeRow : Json ν → Except (HttpFailure ν) (JsonRecord ν)} {rows : List (JsonRecord ν)}
    (h : ∀ row ∈ rows, normalizeRow (.object row) = .ok row) : (rows.map Json.object).mapM normalizeRow = .ok rows := by
  induction rows with
  | nil => rfl
  | cons row rows ih =>
    rw [List.map_cons, List.mapM_cons, h row List.mem_cons_self, ih fun r hr => h r (List.mem_cons_of_mem row hr)]
    rfl

end Rows

section AnyServer
variable {ν ρ : Type} (path : Text) (normalizeRow : Json ν → Except (HttpFailure ν) ρ) (fetch : ℕ → Option Text → HttpReply ν)

/-- What a turn of the loop does with the reply to its request. -/
def loopTurn (turn : ℕ) (s : PageLoop ρ) : Except (HttpFailure ν) (List ρ ⊕ PageLoop ρ) :=
  requestJson (Text.of "GET") (pagePath path s.after) (fetch turn s.after) >>= receivePage path normalizeRow s

/-- The cursors of the requests of a run. -/
def asked : ℕ → ℕ → PageLoop ρ → List (Option Text)
  | 0, _, _ => []
  | fuel + 1, turn, s =>
    s.after :: match loopTurn path normalizeRow fetch turn s with
      | .ok (.inr s) => asked fuel (turn + 1) s
      | _ => []

/-- The ids that the server names as the last of a page. -/
def Names (ids : List Text) : Prop :=
  ∀ turn after value page, fetch turn after = .json value → wirePage (some value) = some page →
    ∀ id, Json.asString page.2.2 = some id → id ∈ ids

variable {path normalizeRow fetch}

/-- A turn after which the loop goes on has a cursor that was not seen before. -/
lemma loopTurn_on {turn : ℕ} {s s' : PageLoop ρ} (h : loopTurn path normalizeRow fetch turn s = .ok (.inr s')) :
    ∃ value page cursor, fetch turn s.after = .json value ∧ wirePage (some value) = some page ∧
      Json.asString page.2.2 = some cursor ∧ cursor ∉ s.seenCursors ∧ s'.after = some cursor ∧
        s'.seenCursors = s.seenCursors ++ [cursor] := by
  obtain ⟨reply,hreply,h⟩ := except_bind_eq_ok.mp h
  unfold receivePage at h
  obtain ⟨⟨data,has_more,last_id⟩,hpage,h⟩ := except_bind_eq_ok.mp h
  obtain ⟨rows,-,h⟩ := except_bind_eq_ok.mp h
  cases hwire : wirePage reply with
  | none =>
    rw [hwire] at hpage
    cases hpage
  | some page =>
    rw [hwire] at hpage
    cases hpage
    cases has_more with
    | false => cases h
    | true =>
      cases hcursor : (Text.truthy (Json.asString last_id)).filter fun cursor =>
          !data.isEmpty && !s.seenCursors.contains cursor with
      | none =>
        simp only [hcursor] at h
        cases h
      | some cursor =>
        simp only [hcursor] at h
        cases h
        obtain ⟨htruthy,hfresh⟩ := Option.filter_eq_some_iff.mp hcursor
        rw [Bool.and_eq_true, Bool.not_eq_true', Bool.not_eq_true'] at hfresh
        cases hfetch : fetch turn s.after with
        | json value =>
          rw [hfetch] at hreply
          cases hreply
          exact ⟨value,_,cursor,rfl,hwire,(Text.truthy_eq_some.mp htruthy).1,by simpa using hfresh.2,rfl,rfl⟩
        | noContent =>
          rw [hfetch] at hreply
          cases hreply
          cases hwire
        | lost =>
          rw [hfetch] at hreply
          cases hreply
        | refused statusCode =>
          rw [hfetch] at hreply
          cases hreply
        | invalidJson =>
          rw [hfetch] at hreply
          cases hreply

/-- The requests after the first are for cursors that were not seen before it, each for one of its own. -/
lemma asked_fresh (fuel turn : ℕ) {s : PageLoop ρ} (hs : ∀ cursor ∈ s.after, cursor ∈ s.seenCursors) :
    (asked path normalizeRow fetch fuel turn s).Nodup ∧
      ∀ a ∈ asked path normalizeRow fetch fuel turn s, a = s.after ∨ ∃ cursor, a = some cursor ∧ cursor ∉ s.seenCursors := by
  induction fuel generalizing turn s with
  | zero => exact ⟨List.nodup_nil,fun a ha => (by cases ha)⟩
  | succ fuel ih =>
    rw [asked]
    split
    · next s' hturn =>
      obtain ⟨_,_,cursor,-,-,-,hfresh,hafter,hseen⟩ := loopTurn_on hturn
      obtain ⟨hnodup,hrest⟩ := ih (turn + 1) (s := s') fun c hc => by
        rw [hafter] at hc
        cases hc
        rw [hseen]
        exact List.mem_append_right _ (List.mem_singleton_self _)
      have hnew : ∀ a ∈ asked path normalizeRow fetch fuel (turn + 1) s', ∃ c, a = some c ∧ c ∉ s.seenCursors := by
        intro a ha
        obtain rfl | ⟨c,rfl,hc⟩ := hrest a ha
        · exact ⟨cursor,hafter,hfresh⟩
        · rw [hseen] at hc
          exact ⟨c,rfl,fun hin => hc (List.mem_append_left _ hin)⟩
      refine ⟨List.nodup_cons.mpr ⟨fun hin => ?_,hnodup⟩,fun a ha => ?_⟩
      · obtain ⟨c,hsame,hc⟩ := hnew _ hin
        exact hc (hs c hsame)
      · obtain rfl | hin := List.mem_cons.mp ha
        · exact Or.inl rfl
        · exact Or.inr (hnew a hin)
    · exact ⟨List.nodup_singleton _,fun a ha => Or.inl (List.mem_singleton.mp ha)⟩

/-- A run ends before it has asked for every cursor that the server can name. -/
lemma requestPages_ends {ids : List Text} (hnames : Names fetch ids) (fuel turn : ℕ) {s : PageLoop ρ}
    (hnodup : s.seenCursors.Nodup) (hseen : s.seenCursors ⊆ ids) (hfuel : ids.length < s.seenCursors.length + fuel) :
    ∃ outcome, requestPages path normalizeRow fetch fuel turn s = some outcome := by
  induction fuel generalizing turn s with
  | zero =>
    have hle := (hnodup.subperm hseen).length_le
    omega
  | succ fuel ih =>
    cases hturn : loopTurn path normalizeRow fetch turn s with
    | error e =>
      unfold loopTurn at hturn
      exact ⟨_,by rw [requestPages, hturn]⟩
    | ok outcome =>
      cases outcome with
      | inl result =>
        unfold loopTurn at hturn
        exact ⟨_,by rw [requestPages, hturn]⟩
      | inr s' =>
        obtain ⟨value,page,cursor,hfetch,hpage,hlast,hfresh,-,hcursors⟩ := loopTurn_on hturn
        unfold loopTurn at hturn
        rw [requestPages, hturn]
        refine ih (turn + 1) ?_ ?_ ?_
        · rw [hcursors]
          exact List.nodup_append.mpr ⟨hnodup,List.nodup_singleton _,fun a ha b hb hab => by
            rw [List.mem_singleton] at hb
            exact hfresh (hb ▸ hab ▸ ha)⟩
        · rw [hcursors]
          intro c hc
          obtain hin | hlast' := List.mem_append.mp hc
          · exact hseen hin
          · rw [List.mem_singleton.mp hlast']
            exact hnames turn s.after value page hfetch hpage cursor hlast
        · rw [hcursors, List.length_append, List.length_singleton]
          omega

/-- Whatever the replies are, no page is asked for twice; and a server that names finitely many ids as the last of
a page, in whatever pages, is asked no more often than there are of these, but one. -/
theorem requestAllPages_any (path : Text) (normalizeRow : Json ν → Except (HttpFailure ν) ρ)
    (fetch : ℕ → Option Text → HttpReply ν) :
    (∀ fuel, (asked path normalizeRow fetch fuel 0 {}).Nodup) ∧
      ∀ ids, Names fetch ids → ∃ outcome, requestAllPages path normalizeRow fetch (ids.length + 1) = some outcome := by
  constructor
  · intro fuel
    exact (asked_fresh fuel 0 fun cursor h => by cases h).1
  · intro ids hnames
    refine requestPages_ends hnames _ 0 List.nodup_nil (List.nil_subset _) ?_
    rw [List.length_nil]
    omega

end AnyServer

section Server
variable {ν τ : Type} [LinearOrder τ] (place : Text → τ) (tables : ℕ → List (JsonRecord ν)) (size : ℕ → ℕ)

/-- A page of the first rows, which says whether there are more and which was the last. -/
def IsPageOf (rows : List (JsonRecord ν)) (size : ℕ) (reply : HttpReply ν) : Prop :=
  ∃ value last_id, reply = .json value ∧
    wirePage (some value) = some ((rows.take size).map Json.object,decide (size < rows.length),last_id) ∧
      ∀ row ∈ (rows.take size).getLast?, Json.asString last_id = some (recordId row)

/-- The server lists its rows in ascending order, those of a request after the place of its cursor. -/
def Serves (ids : List Text) (fetch : ℕ → Option Text → HttpReply ν) : Prop :=
  ∀ turn after, (∀ id ∈ after, id ∈ ids) →
    IsPageOf (beyond recordId place (after.map place) (tables turn)) (size turn) (fetch turn after)

/-- The variables of the loop after so many pages. -/
structure LoopAt (n : ℕ) (s : PageLoop (JsonRecord ν)) : Prop where
  result : s.result = pagesRead recordId place tables size n
  after : s.after = (pagesRead recordId place tables size n).getLast?.map recordId
  seen : ∀ cursor ∈ s.seenCursors, ∃ row ∈ pagesRead recordId place tables size n, recordId row = cursor

/-- What is asked of the rows that a server lists. -/
structure Listed (ids : List Text) (normalizeRow : Json ν → Except (HttpFailure ν) (JsonRecord ν)) : Prop where
  ascending : ∀ i, Ascending recordId place (tables i)
  positive : ∀ i, 0 < size i
  known : ∀ i, ∀ row ∈ tables i, recordId row ∈ ids
  accepted : ∀ i, ∀ row ∈ tables i, normalizeRow (.object row) = .ok row ∧ recordId row ≠ []

variable {place tables size}

lemma loopAt_zero : LoopAt place tables size 0 ({} : PageLoop (JsonRecord ν)) :=
  ⟨rfl,rfl,fun _ h => (by cases h)⟩

variable {ids : List Text} {normalizeRow : Json ν → Except (HttpFailure ν) (JsonRecord ν)} (path : Text)
  {fetch : ℕ → Option Text → HttpReply ν}

lemma LoopAt.after_place {n : ℕ} {s : PageLoop (JsonRecord ν)} (hs : LoopAt place tables size n s) :
    s.after.map place = lastPlace recordId place (pagesRead recordId place tables size n) := by
  rw [hs.after, Option.map_map]
  rfl

/-- The rows of the page that is asked for. -/
lemma fetch_page (hserver : Serves place tables size ids fetch) (hlisted : Listed place tables size ids normalizeRow)
    {n : ℕ} {s : PageLoop (JsonRecord ν)} (hs : LoopAt place tables size n s) :
    IsPageOf (remaining recordId place tables size n) (size n) (fetch n s.after) := by
  have hpage := hserver n s.after fun id hid => by
    rw [hs.after] at hid
    obtain ⟨row,hrow,rfl⟩ := Option.map_eq_some_iff.mp hid
    obtain ⟨i,-,hin⟩ := mem_of_pagesRead (List.mem_of_getLast? hrow)
    exact hlisted.known i row hin
  rwa [hs.after_place] at hpage

lemma take_ne_nil {α : Type} {xs : List α} {k : ℕ} (hk : 0 < k) (h : k < xs.length) : xs.take k ≠ [] := by
  intro hnil
  have hlength := congrArg List.length hnil
  rw [List.length_take, List.length_nil] at hlength
  omega

/-- What a page brings, and what the loop makes of it. -/
lemma receivePage_of_page {rows : List (JsonRecord ν)} {k : ℕ} {reply : HttpReply ν} (hreply : IsPageOf rows k reply)
    (hrows : ∀ row ∈ rows, normalizeRow (.object row) = .ok row ∧ recordId row ≠ []) (hpos : 0 < k)
    (s : PageLoop (JsonRecord ν)) (hfresh : ∀ row ∈ rows, recordId row ∉ s.seenCursors) :
    (requestJson (Text.of "GET") (pagePath path s.after) reply >>= receivePage path normalizeRow s) =
      if k < rows.length then
        .ok (.inr ⟨s.result ++ rows.take k,(rows.take k).getLast?.map recordId,
          s.seenCursors ++ ((rows.take k).getLast?.map recordId).toList⟩)
      else .ok (.inl (s.result ++ rows.take k)) := by
  obtain ⟨value,last_id,rfl,hpage,hlast⟩ := hreply
  have hmap : List.mapM normalizeRow ((rows.take k).map Json.object) = .ok (rows.take k) :=
    mapM_objects fun row hrow => (hrows row (List.mem_of_mem_take hrow)).1
  change receivePage path normalizeRow s (some value) = _
  unfold receivePage
  rw [hpage]
  simp only [Option.elim_some, bind, Except.bind, hmap]
  by_cases hmore : k < rows.length
  · have hne : rows.take k ≠ [] := take_ne_nil hpos hmore
    obtain ⟨last,hgot⟩ := Option.isSome_iff_exists.mp (List.getLast?_isSome.mpr hne)
    have hmem : last ∈ rows := List.mem_of_mem_take (List.mem_of_getLast? hgot)
    have hcursor : (Text.truthy (Json.asString last_id)).filter (fun cursor =>
        !((rows.take k).map Json.object).isEmpty && !s.seenCursors.contains cursor) = some (recordId last) := by
      rw [hlast last hgot, Option.filter_eq_some_iff, Text.truthy_eq_some]
      refine ⟨⟨rfl,(hrows last hmem).2⟩,?_⟩
      rw [Bool.and_eq_true, Bool.not_eq_true', Bool.not_eq_true', List.isEmpty_eq_false_iff]
      exact ⟨fun hnil => hne (List.map_eq_nil_iff.mp hnil),by simpa using hfresh last hmem⟩
    rw [if_pos hmore, decide_eq_true hmore, hcursor, hgot]
    rfl
  · rw [if_neg hmore, decide_eq_false hmore]
    rfl

/-- A page with more after it is a turn of the loop, the last one the end of it. -/
theorem receivePage_at (hserver : Serves place tables size ids fetch) (hlisted : Listed place tables size ids normalizeRow)
    {n : ℕ} {s : PageLoop (JsonRecord ν)} (hs : LoopAt place tables size n s) :
    ∃ turn, (requestJson (Text.of "GET") (pagePath path s.after) (fetch n s.after) >>= receivePage path normalizeRow s) =
      .ok turn ∧ (¬HasMore recordId place tables size n → turn = .inl (pagesRead recordId place tables size (n + 1))) ∧
        (HasMore recordId place tables size n → ∃ s', turn = .inr s' ∧ LoopAt place tables size (n + 1) s') := by
  have hrows : ∀ row ∈ remaining recordId place tables size n, row ∈ tables n := fun row hrow => (mem_beyond.mp hrow).1
  have hascending : Ascending recordId place (pagesRead recordId place tables size n) :=
    pagesRead_ascending hlisted.ascending n
  have hfresh : ∀ row ∈ remaining recordId place tables size n, recordId row ∉ s.seenCursors := by
    intro row hrow hseen
    obtain ⟨before,hbefore,hsame⟩ := hs.seen _ hseen
    obtain ⟨p,hp,hle⟩ := hascending.le_last hbefore
    have hlt := (mem_beyond.mp hrow).2 p hp
    rw [← hsame] at hlt
    exact absurd hlt (not_lt.mpr hle)
  have hpage := receivePage_of_page path (fetch_page hserver hlisted hs)
    (fun row hrow => hlisted.accepted n row (hrows row hrow)) (hlisted.positive n) s hfresh
  by_cases hmore : size n < (remaining recordId place tables size n).length
  · rw [if_pos hmore, hs.result, ← pagesRead_succ] at hpage
    refine ⟨_,hpage,fun hno => absurd hmore hno,fun _ => ⟨_,rfl,rfl,?_,?_⟩⟩
    · rw [pagesRead_succ, List.getLast?_append_of_ne_nil _ (take_ne_nil (hlisted.positive n) hmore)]
    · intro cursor hcursor
      rw [pagesRead_succ]
      obtain hbefore | hlast := List.mem_append.mp hcursor
      · obtain ⟨row,hrow,hid⟩ := hs.seen cursor hbefore
        exact ⟨row,List.mem_append_left _ hrow,hid⟩
      · obtain ⟨row,hrow,hid⟩ := Option.map_eq_some_iff.mp (Option.mem_toList.mp hlast)
        exact ⟨row,List.mem_append_right _ (List.mem_of_getLast? hrow),hid⟩
  · rw [if_neg hmore, hs.result, ← pagesRead_succ] at hpage
    exact ⟨_,hpage,fun _ => rfl,fun hyes => absurd hyes hmore⟩

/-- The loop goes on to the first page that says there is nothing more. -/
theorem requestPages_at (hserver : Serves place tables size ids fetch) (hlisted : Listed place tables size ids normalizeRow)
    (k : ℕ) {n : ℕ} {s : PageLoop (JsonRecord ν)} (hs : LoopAt place tables size n s)
    (hmore : ∀ i < k, HasMore recordId place tables size (n + i)) (hlast : ¬HasMore recordId place tables size (n + k))
    {fuel : ℕ} (hfuel : k < fuel) :
    requestPages path normalizeRow fetch fuel n s = some (.ok (pagesRead recordId place tables size (n + k + 1))) := by
  induction k generalizing n s fuel with
  | zero =>
    obtain ⟨fuel,rfl⟩ := Nat.exists_eq_add_of_lt hfuel
    obtain ⟨turn,hturn,hend,-⟩ := receivePage_at path hserver hlisted hs
    rw [Nat.zero_add, requestPages, hturn, hend hlast]
  | succ k ih =>
    obtain ⟨rest,rfl⟩ : ∃ rest, fuel = rest + 1 := ⟨fuel - 1,by omega⟩
    obtain ⟨turn,hturn,-,hon⟩ := receivePage_at path hserver hlisted hs
    obtain ⟨s',rfl,hs'⟩ := hon (hmore 0 (by omega))
    have hshift : n + (k + 1) = n + 1 + k := by omega
    rw [requestPages, hturn, hshift]
    rw [hshift] at hlast
    refine ih hs' (fun i hi => ?_) hlast (by omega)
    have hi := hmore (i + 1) (by omega)
    rwa [show n + (i + 1) = n + 1 + i by omega] at hi

end Server

section Moving
variable {ν τ : Type} [JsNumber ν] [LinearOrder τ]

/-- Whatever rows come and go between the requests: the list ends after no more requests than there are ids, but
one; its rows are in order and so none twice; each was listed at one of the requests; and none is missing that was
listed at all of them. -/
theorem requestAllPages_moving (place : Text → τ) (tables : ℕ → List (JsonRecord ν)) (size : ℕ → ℕ) (ids : List Text)
    (fetch : ℕ → Option Text → HttpReply ν) (path : Text) (normalizeRow : Json ν → Except (HttpFailure ν) (JsonRecord ν))
    (hnormal : normalizeRow ∈ pagedNormalizers) (hserver : Serves place tables size ids fetch)
    (hsize : ∀ i, 0 < size i) (hsorted : ∀ i, Ascending recordId place (tables i))
    (hids : ∀ i, ∀ row ∈ tables i, recordId row ∈ ids)
    (hrows : ∀ i, ∀ row ∈ tables i, ∃ r, normalizeRow (.object row) = .ok r) :
    ∃ requests result, requests ≤ ids.length + 1 ∧
      (∀ fuel, requests ≤ fuel → requestAllPages path normalizeRow fetch fuel = some (.ok result)) ∧
      Ascending recordId place result ∧ (∀ row ∈ result, ∃ i < requests, row ∈ tables i) ∧
      ∀ id, (∀ i < requests, ∃ row ∈ tables i, recordId row = id) → ∃ row ∈ result, recordId row = id := by
  have hlisted : Listed place tables size ids normalizeRow :=
    ⟨hsorted,hsize,hids,fun i row hrow => normalized_row hnormal (hrows i row hrow).choose_spec⟩
  obtain ⟨n,hn,hlast,hmore⟩ := exists_last_page hsorted hsize hids
  refine ⟨n + 1,pagesRead recordId place tables size (n + 1),by omega,fun fuel hfuel => ?_,
    pagesRead_ascending hsorted (n + 1),fun row hrow => mem_of_pagesRead hrow,fun id hid => ?_⟩
  · have hrun := requestPages_at path hserver hlisted n loopAt_zero
      (fun i hi => by rw [Nat.zero_add]; exact hmore i hi) (by rwa [Nat.zero_add]) hfuel
    rwa [Nat.zero_add] at hrun
  · exact pagesRead_covers hsorted hlast fun i hi => hid i (by omega)

end Moving
section Samples

/-- A page as a server writes it. -/
def pageReply {ν : Type} (rows : List (JsonRecord ν)) (size : ℕ) : HttpReply ν :=
  .json (.object [(Text.of "data",.array ((rows.take size).map Json.object)),
    (Text.of "has_more",.bool (decide (size < rows.length))),
    (Text.of "last_id",(rows.take size).getLast?.elim .null fun row => .string (recordId row))])

lemma pageReply_isPageOf {ν : Type} (rows : List (JsonRecord ν)) (size : ℕ) : IsPageOf rows size (pageReply rows size) := by
  refine ⟨_,_,rfl,rfl,fun row hrow => ?_⟩
  rw [Option.mem_def.mp hrow]
  rfl

def sampleItem (id : String) : JsonRecord ℕ :=
  [(Text.of "id",.string (Text.of id)),(Text.of "response_id",.string (Text.of "r")),
    (Text.of "status",.string (Text.of "completed")),(Text.of "type",.string (Text.of "message")),
    (Text.of "created_at",.number 0)]

/-- Between the first two requests an item goes and another one comes. -/
def sampleTables (turn : ℕ) : List (JsonRecord ℕ) :=
  if turn = 0 then [sampleItem "a",sampleItem "b",sampleItem "c"] else [sampleItem "a",sampleItem "c",sampleItem "d"]

def sampleIds : List Text := [Text.of "a",Text.of "b",Text.of "c",Text.of "d"]

def sampleServer (turn : ℕ) (after : Option Text) : HttpReply ℕ :=
  pageReply (beyond recordId sampleIds.idxOf (after.map sampleIds.idxOf) (sampleTables turn)) 1

lemma sampleTables_eq (i : ℕ) : sampleTables i = sampleTables 0 ∨ sampleTables i = sampleTables 1 := by
  cases i with
  | zero => exact Or.inl rfl
  | succ i => exact Or.inr rfl

lemma sampleTables_ascending (i : ℕ) : Ascending recordId sampleIds.idxOf (sampleTables i) := by
  unfold Ascending
  obtain h | h := sampleTables_eq i
  all_goals
    rw [h]
    decide +kernel

lemma sampleTables_known (i : ℕ) : ∀ row ∈ sampleTables i, recordId row ∈ sampleIds := by
  obtain h | h := sampleTables_eq i
  all_goals
    rw [h]
    decide +kernel

lemma sampleTables_accepted (i : ℕ) :
    ∀ row ∈ sampleTables i, ∃ r, normalizeConversationItem (.object row) = .ok r := by
  have haccepted : ∀ row ∈ sampleTables i, (normalizeConversationItem (.object row)).toOption.isSome = true := by
    obtain h | h := sampleTables_eq i
    all_goals
      rw [h]
      decide +kernel
  intro row hrow
  cases h : normalizeConversationItem (.object row) with
  | ok r => exact ⟨r,rfl⟩
  | error e =>
    have hsome := haccepted row hrow
    rw [h] at hsome
    cases hsome

theorem requestAllPages_moving_sample : ∃ requests result, requests ≤ sampleIds.length + 1 ∧
    (∀ fuel, requests ≤ fuel → requestAllPages (Text.of "/items") normalizeConversationItem sampleServer fuel =
      some (.ok result)) ∧
    Ascending recordId sampleIds.idxOf result ∧ (∀ row ∈ result, ∃ i < requests, row ∈ sampleTables i) ∧
    ∀ id, (∀ i < requests, ∃ row ∈ sampleTables i, recordId row = id) → ∃ row ∈ result, recordId row = id := by
  exact requestAllPages_moving sampleIds.idxOf sampleTables (fun _ => 1) sampleIds sampleServer (Text.of "/items")
    normalizeConversationItem (by simp [pagedNormalizers]) (fun _ _ _ => pageReply_isPageOf _ _) (fun _ => Nat.one_pos)
    sampleTables_ascending sampleTables_known sampleTables_accepted

example : (requestAllPages (Text.of "/items") normalizeConversationItem sampleServer 3).bind (fun outcome =>
    outcome.toOption.map (·.map recordId)) = some [Text.of "a",Text.of "c",Text.of "d"] := by decide +kernel

/-- A server that gives the same page again and says there is more. -/
def stagnantServer (_ : ℕ) (_ : Option Text) : HttpReply ℕ :=
  .json (.object [(Text.of "data",.array [.object (sampleItem "a")]),(Text.of "has_more",.bool true),
    (Text.of "last_id",.string (Text.of "a"))])

theorem requestAllPages_any_stagnant :
    ∃ outcome, requestAllPages (Text.of "/items") normalizeConversationItem stagnantServer
      ([Text.of "a"].length + 1) = some outcome := by
  refine (requestAllPages_any (Text.of "/items") normalizeConversationItem stagnantServer).2 [Text.of "a"] ?_
  intro turn after value page hreply hpage id hid
  cases hreply
  cases hpage
  cases hid
  exact List.mem_singleton_self _

end Samples
end OmnigentHttpClient
end OmniagentPlus.OmnigentTransport
