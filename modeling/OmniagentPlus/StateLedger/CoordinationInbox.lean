import OmniagentPlus.StateLedger.CoordinationChannel
import OmniagentPlus.Foundation.Transition

/-! What sends at any readings of the clock leave in the inbox: a message is kept until it is seven
days old, under the earliest of the readings since it came. -/
namespace OmniagentPlus.StateLedger
open OmniagentPlus.Foundation OmniagentPlus.CoreContracts

section Inbox
variable {ν : Type}

def inboxMessages (file : Option (LocalCoordinationInboxState ν)) : List (MessageFields ν) :=
  (file.map (·.messages)).getD []

/-- The message but for its creation time, which is no later than before and no later than `now`. -/
structure Kept (now : ℤ) (before after : MessageFields ν) : Prop where
  same : { after with created_at := before.created_at } = before
  clamped : after.created_at.instant = 1000 * min before.created_at.seconds now

lemma kept_clampCreation (now : ℤ) (m : MessageFields ν) : Kept now m (clampCreation now m) := by
  refine ⟨rfl,?_⟩
  change 1000 * (if 1000 * now < m.created_at.instant then now else m.created_at.seconds) = _
  have hseconds : m.created_at.seconds = m.created_at.instant / 1000 := rfl
  split_ifs with hlater <;> omega

lemma clampCreation_of_same {now : ℤ} {m : MessageFields ν}
    (h : (clampCreation now m).created_at = m.created_at) : clampCreation now m = m := by
  cases m
  rw [clampCreation] at h ⊢
  dsimp only at h ⊢
  rw [h]

/-- The messages that a send at `now` keeps. -/
def keptMessages (file : Option (LocalCoordinationInboxState ν)) (now : ℤ) : List (MessageFields ν) :=
  ((inboxMessages file).map (clampCreation now)).filter (unexpired now)

/-- A message is younger than seven days at `now`, under its clamped time. -/
def YoungAt (now : ℤ) (m : MessageFields ν) : Prop := now - inboxTtlSeconds < min m.created_at.seconds now

instance decidableYoungAt (now : ℤ) (m : MessageFields ν) : Decidable (YoungAt now m) := by
  unfold YoungAt; infer_instance

lemma unexpired_clampCreation {now : ℤ} {m : MessageFields ν} :
    unexpired now (clampCreation now m) = decide (YoungAt now m) := by
  have hclamped := (kept_clampCreation now m).clamped
  apply Bool.eq_iff_iff.mpr
  rw [unexpired, decide_eq_true_iff, decide_eq_true_iff, hclamped, YoungAt]
  omega

/-- What is kept are the young messages, clamped, in their order. -/
lemma kept_of_young (file : Option (LocalCoordinationInboxState ν)) (now : ℤ) :
    List.Forall₂ (Kept now) ((inboxMessages file).filter fun m => decide (YoungAt now m)) (keptMessages file now) := by
  have hyoung : (unexpired now ∘ clampCreation now : MessageFields ν → Bool) = fun m => decide (YoungAt now m) :=
    funext fun m => unexpired_clampCreation
  rw [keptMessages, List.filter_map, hyoung, List.forall₂_map_right_iff]
  exact List.forall₂_same.mpr fun m _ => kept_clampCreation now m

/-- What a send that is accepted at `now` makes of the messages. -/
structure Accepts (now : ℤ) (before after : List (MessageFields ν)) (receipt : CoordinationMessageReceipt) : Prop where
  notLater : ∀ m ∈ after, m.created_at.instant ≤ 1000 * now
  appended : ∃ kept new, after = kept ++ [new] ∧ List.Forall₂ (Kept now) (before.filter fun m => decide (YoungAt now m)) kept ∧
    new.message_id = receipt.messageId ∧ new.created_at = receipt.createdAt ∧ receipt.createdAt = .contract now
  bounded : after.length ≤ inboxCapacity

lemma accepts_kept (file : Option (LocalCoordinationInboxState ν)) (now : ℤ) {built : MessageFields ν}
    (hcreated : built.created_at = .contract now) (hroom : (keptMessages file now).length < inboxCapacity) :
    Accepts now (inboxMessages file) (keptMessages file now ++ [built]) ⟨built.message_id,built.created_at⟩ := by
  refine ⟨fun m hm => ?_,⟨_,built,rfl,kept_of_young file now,rfl,rfl,hcreated⟩,?_⟩
  · rw [List.mem_append, List.mem_singleton] at hm
    cases hm with
    | inl hkept =>
      obtain ⟨before,-,rfl⟩ := List.mem_map.mp (List.mem_filter.mp hkept).1
      rw [(kept_clampCreation now before).clamped]
      omega
    | inr hnew =>
      rw [hnew, hcreated]
      exact Int.le_refl _
  · rw [List.length_append, List.length_singleton]
    omega

/-- What a send that is refused for capacity at `now` makes of them. -/
def Refuses (now : ℤ) (before after : List (MessageFields ν)) : Prop :=
  ∃ rest, rest.Sublist before ∧ (before.filter fun m => decide (YoungAt now m)).Sublist rest ∧
    List.Forall₂ (Kept now) rest after

variable [JsNumber ν] {isDatetime : Text → Bool}

lemma readInbox_messages {file : Option (LocalCoordinationInboxState ν)} {now : ℤ}
    {state : LocalCoordinationInboxState ν} (h : readInbox isDatetime file now = .ok state) :
    state.messages = inboxMessages file := by
  unfold readInbox at h
  cases file with
  | none =>
    cases h
    rfl
  | some stored =>
    dsimp only at h
    split_ifs at h
    cases h
    rfl

lemma buildMessage_fields {input : CoordinationMessageInput ν} {now : ℤ} {uuid : Text}
    {built : CoordinationMessage ν isDatetime} (h : buildMessage isDatetime input now uuid = .ok built) :
    built.created_at = .contract now := by
  unfold buildMessage at h
  split at h
  · dsimp only at h
    split at h
    · cases h
      rfl
    · cases h
  · cases h

lemma readInbox_error {file : Option (LocalCoordinationInboxState ν)} {now : ℤ} {e : CoordinationError}
    (h : readInbox isDatetime file now = .error e) : e = .malformed := by
  unfold readInbox at h
  cases file with
  | none => cases h
  | some stored =>
    dsimp only at h
    split_ifs at h
    cases h
    rfl

lemma buildMessage_error {input : CoordinationMessageInput ν} {now : ℤ} {uuid : Text} {e : CoordinationError}
    (h : buildMessage isDatetime input now uuid = .error e) : e ≠ .capacity := by
  unfold buildMessage at h
  split at h
  · dsimp only at h
    split at h
    · cases h
    · cases h
      decide
  · cases h
    decide

variable (isDatetime) in
/-- The cases of a send under the lock. -/
theorem sendLocked_cases (file : Option (LocalCoordinationInboxState ν)) (message : CoordinationMessageInput ν)
    (clock : Option ℤ) (uuid : Text) :
    (∃ e, e ≠ .capacity ∧ sendLocked isDatetime file message clock uuid = (.error e,file)) ∨
    ∃ instant, clock = some instant ∧
      ((inboxCapacity ≤ (keptMessages file (toContractTimestamp instant)).length ∧
        ∃ after, sendLocked isDatetime file message clock uuid = (.error .capacity,after) ∧
          (inboxMessages after = keptMessages file (toContractTimestamp instant) ∨
            (after = file ∧ ∀ m ∈ inboxMessages file, clampCreation (toContractTimestamp instant) m = m))) ∨
      ((keptMessages file (toContractTimestamp instant)).length < inboxCapacity ∧
        ∃ built : CoordinationMessage ν isDatetime, built.created_at = .contract (toContractTimestamp instant) ∧
          sendLocked isDatetime file message clock uuid = (.ok ⟨built.message_id,built.created_at⟩,
            some ⟨.contract (toContractTimestamp instant),
              keptMessages file (toContractTimestamp instant) ++ [built.toMessageFields]⟩))) := by
  unfold sendLocked
  split_ifs with hinert
  · exact Or.inl ⟨_,by decide,rfl⟩
  cases clock with
  | none => exact Or.inl ⟨_,by decide,rfl⟩
  | some instant =>
    dsimp only
    cases hread : readInbox isDatetime file (toContractTimestamp instant) with
    | error e =>
      rw [readInbox_error hread]
      exact Or.inl ⟨_,by decide,rfl⟩
    | ok state =>
      have hmessages := readInbox_messages hread
      dsimp only
      cases hbuild : buildMessage isDatetime message (toContractTimestamp instant) uuid with
      | error e => exact Or.inl ⟨e,buildMessage_error hbuild,rfl⟩
      | ok built =>
        dsimp only
        rw [hmessages]
        refine Or.inr ⟨instant,rfl,?_⟩
        by_cases hfull : inboxCapacity ≤ (keptMessages file (toContractTimestamp instant)).length
        · refine Or.inl ⟨hfull,_,if_pos hfull,?_⟩
          split_ifs with hnormalized
          · exact Or.inl rfl
          · refine Or.inr ⟨rfl,fun m hm => clampCreation_of_same ?_⟩
            by_contra hne
            exact hnormalized (List.any_eq_true.mpr ⟨m,hm,decide_eq_true hne⟩)
        · exact Or.inr ⟨Nat.lt_of_not_le hfull,built,buildMessage_fields hbuild,if_neg hfull⟩

/-- A call of `send`: its message, the reading of its clock, and the UUID that it draws. -/
structure SendCall (ν : Type) where
  message : JsValue ν
  clock : Option ℤ
  uuid : Text

def sendStep (isDatetime : Text → Bool) (file : Option (LocalCoordinationInboxState ν)) (c : SendCall ν) :
    Option (Option (LocalCoordinationInboxState ν)) := some (send isDatetime file c.message c.clock c.uuid).2

/-- What a send does to the messages of the file, accepted or not. -/
structure SendSound (isDatetime : Text → Bool) (file : Option (LocalCoordinationInboxState ν)) (c : SendCall ν) : Prop where
  accepted : ∀ receipt, (send isDatetime file c.message c.clock c.uuid).1 = .ok receipt →
    ∃ instant, c.clock = some instant ∧ Accepts (toContractTimestamp instant) (inboxMessages file)
      (inboxMessages (send isDatetime file c.message c.clock c.uuid).2) receipt
  full : (send isDatetime file c.message c.clock c.uuid).1 = .error .capacity →
    ∃ instant, c.clock = some instant ∧ Refuses (toContractTimestamp instant) (inboxMessages file)
      (inboxMessages (send isDatetime file c.message c.clock c.uuid).2)
  refused : ∀ e, (send isDatetime file c.message c.clock c.uuid).1 = .error e → e ≠ .capacity →
    (send isDatetime file c.message c.clock c.uuid).2 = file

variable (isDatetime) in
theorem sendLocked_sound (file : Option (LocalCoordinationInboxState ν)) (message : CoordinationMessageInput ν)
    (clock : Option ℤ) (uuid : Text) :
    (∀ receipt, (sendLocked isDatetime file message clock uuid).1 = .ok receipt →
      ∃ instant, clock = some instant ∧ Accepts (toContractTimestamp instant) (inboxMessages file)
        (inboxMessages (sendLocked isDatetime file message clock uuid).2) receipt) ∧
    ((sendLocked isDatetime file message clock uuid).1 = .error .capacity →
      ∃ instant, clock = some instant ∧ Refuses (toContractTimestamp instant) (inboxMessages file)
        (inboxMessages (sendLocked isDatetime file message clock uuid).2)) ∧
    ∀ e, (sendLocked isDatetime file message clock uuid).1 = .error e → e ≠ .capacity →
      (sendLocked isDatetime file message clock uuid).2 = file := by
  obtain ⟨e,hne,heq⟩ | ⟨instant,hclock,⟨-,after,heq,hafter⟩ | ⟨hroom,built,hcreated,heq⟩⟩ :=
    sendLocked_cases isDatetime file message clock uuid
  · rw [heq]
    exact ⟨fun receipt h => (by cases h),fun h => absurd (Except.error.inj h) hne,fun _ _ _ => rfl⟩
  · rw [heq]
    refine ⟨fun receipt h => (by cases h),fun _ => ⟨instant,hclock,?_⟩,fun e h hne => absurd (Except.error.inj h).symm hne⟩
    cases hafter with
    | inl hkept =>
      rw [hkept]
      exact ⟨_,List.filter_sublist,List.Sublist.refl _,kept_of_young file _⟩
    | inr hsame =>
      rw [hsame.1]
      refine ⟨_,List.Sublist.refl _,List.filter_sublist,List.forall₂_same.mpr fun m hm => ?_⟩
      have hkept := kept_clampCreation (toContractTimestamp instant) m
      rw [hsame.2 m hm] at hkept
      exact hkept
  · rw [heq]
    refine ⟨fun receipt h => ?_,fun h => (by cases h),fun e h => (by cases h)⟩
    cases h
    exact ⟨instant,hclock,accepts_kept file _ hcreated hroom⟩

variable (isDatetime) in
/-- Before the lock a message is refused, or it is checked. -/
lemma send_cases (file : Option (LocalCoordinationInboxState ν)) (c : SendCall ν) :
    (∃ e, e ≠ .capacity ∧ send isDatetime file c.message c.clock c.uuid = (.error e,file)) ∨
      ∃ input, send isDatetime file c.message c.clock c.uuid = sendLocked isDatetime file input c.clock c.uuid := by
  unfold send
  split_ifs
  · cases parseInput (projectInert 65 c.message) with
    | none => exact Or.inl ⟨_,by decide,rfl⟩
    | some input => exact Or.inr ⟨input,rfl⟩
  · exact Or.inl ⟨_,by decide,rfl⟩

theorem send_sound (file : Option (LocalCoordinationInboxState ν)) (c : SendCall ν) : SendSound isDatetime file c := by
  cases send_cases isDatetime file c with
  | inl hrefused =>
    obtain ⟨e,hne,heq⟩ := hrefused
    constructor
    · intro receipt h
      rw [heq] at h
      cases h
    · intro h
      rw [heq] at h
      exact absurd (Except.error.inj h) hne
    · intro _ _ _
      rw [heq]
  | inr hchecked =>
    obtain ⟨input,heq⟩ := hchecked
    obtain ⟨haccepted,hfull,hrefused⟩ := sendLocked_sound isDatetime file input c.clock c.uuid
    exact ⟨by rw [heq]; exact haccepted,by rw [heq]; exact hfull,by rw [heq]; exact hrefused⟩

/-- A listed message is younger than seven days. -/
def ListedYoung (isDatetime : Text → Bool) (file : Option (LocalCoordinationInboxState ν)) : Prop :=
  ∀ query clock ms, list isDatetime file query (some clock) = .ok ms →
    ∀ m ∈ ms, clock < m.created_at.instant + 1000 * inboxTtlSeconds

theorem listedYoung (file : Option (LocalCoordinationInboxState ν)) : ListedYoung isDatetime file := by
  intro query clock ms h m hm
  unfold list at h
  obtain ⟨⟨limit,cursor⟩,-,h⟩ := except_bind_eq_ok.mp h
  obtain ⟨instant,hinstant,h⟩ := except_bind_eq_ok.mp h
  obtain ⟨state,-,h⟩ := except_bind_eq_ok.mp h
  cases hinstant
  cases h
  have hmatches := List.mem_mergeSort.mp (List.mem_filter.mp (List.mem_of_mem_take hm)).1
  obtain ⟨hlisted,hquery⟩ := List.mem_filter.mp hmatches
  obtain ⟨stored,-,rfl⟩ := List.mem_map.mp hlisted
  simp only [matchesQuery, Bool.and_eq_true, unexpired, decide_eq_true_eq] at hquery
  have hlive := hquery.1.1
  change 1000 * (toContractTimestamp clock - inboxTtlSeconds) < 1000 * stored.created_at.seconds at hlive
  change clock < 1000 * stored.created_at.seconds + 1000 * inboxTtlSeconds
  rw [toContractTimestamp] at hlive
  omega

/-- Every send of a run does to the messages what it should, and no state on the way lists an old one. -/
theorem sends_keep_unexpired (isDatetime : Text → Bool) (file : Option (LocalCoordinationInboxState ν))
    (calls : List (SendCall ν)) :
    Meets (sendStep isDatetime) (fun file c => SendSound isDatetime file c ∧ ListedYoung isDatetime file ∧
      ListedYoung isDatetime (send isDatetime file c.message c.clock c.uuid).2) file calls :=
  meets_of_always (sendStep isDatetime) (fun c _ file => ⟨send_sound file c,listedYoung file,listedYoung _⟩) file

end Inbox
end OmniagentPlus.StateLedger
