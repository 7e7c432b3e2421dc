import OmniagentPlus.OmnigentTransport.PageBreaks

/-! Page after page of a fixed history: together they are what the reader lacked of it, each event and each
text once, under increasing numbers. -/
namespace OmniagentPlus.OmnigentTransport
open OmniagentPlus.Foundation OmniagentPlus.CoreContracts

section Runs
variable {ν : Type} [JsNumber ν] (isDatetime : Text → Bool) (sessionId : Text)
  (items : List (OmnigentConversationItem ν)) (limit : Option ℕ)

/-- Pages asked for one after another, each from where the last one ended, until one is empty. -/
def readPages : ℕ → EventReplay → Option ℕ → List (List (RuntimeEventEnvelope ν))
  | 0, _, _ => []
  | pages + 1, s, afterSequence =>
    match s.readHistory isDatetime sessionId items afterSequence limit with
    | none => []
    | some out => out.1.events :: if out.1.events.isEmpty then [] else readPages pages out.2 (some out.1.nextCursor)

variable {isDatetime sessionId items limit}

/-- What the pages of a run have together. -/
structure PagesTaken (events : List (RuntimeEventEnvelope ν)) (pages : ℕ) (afterSequence : Option ℕ) (r : Reader)
    (out : List (List (RuntimeEventEnvelope ν))) : Prop where
  increasing : out.flatten.Pairwise fun a b => a.sequence < b.sequence
  range : ∀ e ∈ out.flatten, afterSequence.getD 0 < e.sequence
  taken : out.flatten.map content <+: (r.due events).map content
  ended : (r.due events).length < pages → out.getLast? = some [] ∧ out.flatten.map content = (r.due events).map content

lemma readPages_taken {mapped : MappedOmnigentHistory ν}
    (hmapped : mapOmnigentConversationHistory isDatetime sessionId items none = some mapped) (hlimit : limit ≠ some 0)
    (pages : ℕ) {operations : List (ReplayOperation ν)} {afterSequence : Option ℕ} {r : Reader}
    (hready : PageReady operations sessionId mapped.runtimeEvents afterSequence r)
    (hbreaks : PageBreaks operations sessionId mapped.runtimeEvents limit r) :
    PagesTaken mapped.runtimeEvents pages afterSequence r
      (readPages isDatetime sessionId items limit pages (EventReplay.after operations) afterSequence) := by
  induction pages generalizing operations afterSequence r with
  | zero => exact ⟨List.Pairwise.nil,fun e he => (nomatch he),List.nil_prefix,fun h => absurd h (Nat.not_lt_zero _)⟩
  | succ pages ih =>
    have hnamed := mapped_named hmapped
    obtain ⟨table,htable⟩ := hready.numbers.renumbered
    have htaken := hready.pageTaken htable hnamed hlimit
    have hread : (EventReplay.after operations).readHistory isDatetime sessionId items afterSequence limit =
        some ((EventReplay.after operations).replayHistory sessionId mapped.runtimeEvents afterSequence limit) := by
      rw [EventReplay.readHistory, hmapped, Option.map_some]
    rw [readPages, hread, hready.replayHistory_eq htable]
    dsimp only
    by_cases hempty : cutPage limit (r.lacked mapped.runtimeEvents) = []
    · rw [hempty] at htaken ⊢
      have hdue := htaken.ended rfl
      exact ⟨List.Pairwise.nil,fun e he => (nomatch he),List.nil_prefix,fun _ => ⟨rfl,by rw [hdue]; rfl⟩⟩
    · obtain ⟨hnext,hbreaksnext⟩ := ready_next hready hbreaks hnamed htable hempty
      have hreceive : r.receive (cutPage limit (r.lacked mapped.runtimeEvents)) =
          r.receive ((cutPage limit (r.lacked mapped.runtimeEvents)).map (renumber table)) :=
        Reader.receive_congr (content_renumber table _).symm
      have hrest := ih hnext hbreaksnext
      rw [hreceive] at hrest
      have hne : (cutPage limit (r.lacked mapped.runtimeEvents)).map (renumber table) ≠ [] := mt List.map_eq_nil_iff.mp hempty
      rw [if_neg (by simpa using hempty)]
      unfold afterPage pageCursor at hrest
      generalize (cutPage limit (r.lacked mapped.runtimeEvents)).map (renumber table) = page at htaken hrest hne ⊢
      have hdrop : ((r.receive page).due mapped.runtimeEvents).map content =
          ((r.due mapped.runtimeEvents).map content).drop page.length := by
        rw [htaken.rest, List.map_drop]
      obtain ⟨tail,htail⟩ := htaken.taken
      have htail' : tail = ((r.receive page).due mapped.runtimeEvents).map content := by
        rw [hdrop, ← htail, List.drop_left' (List.length_map _)]
      refine ⟨?_,?_,?_,fun hlt => ?_⟩
      · rw [List.flatten_cons, List.pairwise_append]
        refine ⟨htaken.increasing,hrest.increasing,fun a ha b hb => ?_⟩
        exact (htaken.range a ha).2.trans_lt (hrest.range b hb)
      · intro e he
        rw [List.flatten_cons, List.mem_append] at he
        obtain he | he := he
        · exact (htaken.range e he).1
        · obtain ⟨first,hfirst⟩ := List.exists_mem_of_ne_nil _ hne
          have hcursor := htaken.range first hfirst
          exact (hcursor.1.trans_le hcursor.2).trans (hrest.range e he)
      · rw [List.flatten_cons, List.map_append, ← htail, List.prefix_append_right_inj, htail']
        exact hrest.taken
      · have hlength : page.length + tail.length = (r.due mapped.runtimeEvents).length := by
          rw [← List.length_map content, ← List.length_append, htail, List.length_map]
        have hshort : ((r.receive page).due mapped.runtimeEvents).length < pages := by
          rw [← List.length_map content, ← htail']
          have hpos := List.length_pos_iff.mpr hne
          omega
        obtain ⟨hlast,hall⟩ := hrest.ended hshort
        constructor
        · rw [List.getLast?_cons, hlast]
          rfl
        · rw [List.flatten_cons, List.map_append, hall, ← htail, htail']

/-- A reader asks a provider after any calls for page after page of a fixed history. Where the provider is ready for the
reader and no page cuts a message that other events follow, the numbers go up from the cursor, and the pages are the front
of what the reader lacked; with enough of them the last is empty, and all that was lacking came, each message from
where the reader's text of it ended. -/
theorem historyPages_exact (operations : List (ReplayOperation ν)) {mapped : MappedOmnigentHistory ν}
    (hmapped : mapOmnigentConversationHistory isDatetime sessionId items none = some mapped) (hlimit : limit ≠ some 0)
    (pages : ℕ) (afterSequence : Option ℕ) (r : Reader)
    (hready : PageReady operations sessionId mapped.runtimeEvents afterSequence r)
    (hbreaks : PageBreaks operations sessionId mapped.runtimeEvents limit r) :
    let out := readPages isDatetime sessionId items limit pages (EventReplay.after operations) afterSequence
    out.flatten.Pairwise (fun a b => a.sequence < b.sequence) ∧ (∀ e ∈ out.flatten, afterSequence.getD 0 < e.sequence) ∧
      out.flatten.map content <+: (r.due mapped.runtimeEvents).map content ∧
      ((r.due mapped.runtimeEvents).length < pages → out.getLast? = some [] ∧
        out.flatten.map content = (r.due mapped.runtimeEvents).map content ∧
        ∀ turnId key, currentText none out.flatten turnId key =
          (currentText none mapped.runtimeEvents turnId key).drop (r.textLength turnId key)) := by
  have htaken := readPages_taken hmapped hlimit pages hready hbreaks
  refine ⟨htaken.increasing,htaken.range,htaken.taken,fun hlt => ?_⟩
  obtain ⟨hlast,hall⟩ := htaken.ended hlt
  exact ⟨hlast,hall,fun turnId key => (currentText_congr hall turnId key).trans (r.currentText_due _ turnId key)⟩

end Runs

/-- An assistant's message of several texts. -/
def blocksItem (id turnId : String) (texts : List String) : OmnigentConversationItem ℕ where
  created_at := 0
  id := Text.of id
  response_id := Text.of turnId
  type := .message
  data := [(Text.of "role",.string (Text.of "assistant")),
    (Text.of "content",.array (texts.map fun text => .object [(Text.of "text",.string (Text.of text))]))]

/-- A page that ends inside a message: the rest of it gets a number above that of the tool call after it. -/
theorem historyPages_skip :
    let items := [blocksItem "m1" "t1" ["A","B"],functionCallItem "f1" "t1" "c1"]
    let out := readPages (· == startOfEpoch) (Text.of "s") items (some 1) 6 EventReplay.init none
    out.map (fun page => page.map (·.sequence)) = [[1],[2],[5],[]] ∧
      ((mapOmnigentConversationHistory (· == startOfEpoch) (Text.of "s") items none).map fun mapped =>
        mapped.runtimeEvents.filter fun e => !(out.flatten.map runtimeEventSequenceKey).contains (runtimeEventSequenceKey e)
          && isPlain e).map (fun skipped => skipped.map (·.eventId)) = some [Text.of "f1"] := by
  decide +kernel

/-- A turn that began live: its start and the front of its first message. -/
def begunLive : List (ReplayOperation ℕ) :=
  let started : RuntimeEventEnvelope ℕ :=
    ⟨Text.of "e1",1,Text.of "s",some (Text.of "t1"),startOfEpoch,.turnStarted (Text.of "go") .running,.contentAllowed,false⟩
  [.resequence ⟨Text.of "s",[started,textEvent "s" "t1" "e2" "hel" 1],0⟩,
    .record (Text.of "s") [textEvent "s" "t1" "e2" "hel" 2] (some (Text.of "m1"))]

/-- The reader that was there. -/
def liveReader : Reader where
  texts turnId key := if turnId = Text.of "t1" ∧ key = Text.of "m1" then some (Text.of "hel") else none
  handed := [Text.of "turn:t1:started"]

/-- The rest of the turn, event by event: what is left of the first message, a tool call, and a last message
that the pages cut. -/
theorem historyPages_exact_live :
    let items := [blocksItem "m1" "t1" ["hello"],functionCallItem "f1" "t1" "c1",blocksItem "m2" "t1" ["A","B"]]
    let out := readPages (· == startOfEpoch) (Text.of "s") items (some 1) 6 (EventReplay.after begunLive) (some 2)
    ∃ mapped, mapOmnigentConversationHistory (· == startOfEpoch) (Text.of "s") items none = some mapped ∧
      out.getLast? = some [] ∧ out.flatten.map content = (liveReader.due mapped.runtimeEvents).map content := by
  intro items
  have hready : ((mapOmnigentConversationHistory (· == startOfEpoch) (Text.of "s") items none).any fun mapped =>
      decide (PageReady begunLive (Text.of "s") mapped.runtimeEvents (some 2) liveReader) &&
        decide (PageBreaks begunLive (Text.of "s") mapped.runtimeEvents (some 1) liveReader) &&
        decide ((liveReader.due mapped.runtimeEvents).length < 6)) = true := by
    decide +kernel
  obtain ⟨mapped,hmapped,hall⟩ := (Option.any_eq_true _ _).mp hready
  rw [Bool.and_eq_true, Bool.and_eq_true, decide_eq_true_eq, decide_eq_true_eq, decide_eq_true_eq] at hall
  obtain ⟨-,-,-,htaken⟩ := historyPages_exact begunLive hmapped (by decide) 6 (some 2) liveReader hall.1.1 hall.1.2
  obtain ⟨hlast,hcontent,-⟩ := htaken hall.2
  exact ⟨mapped,hmapped,hlast,hcontent⟩

end OmniagentPlus.OmnigentTransport
