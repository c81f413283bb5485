import OutcomeAssurance.Occurrences
import OutcomeAssurance.ReviewModel

/-! # Idempotency keys inside the notes

    `decide_review` keeps the key of a decision in the free text of its notes
    and looks for a key there as a substring.  A key is taken for the recorded
    one wherever the notes read like it. -/

namespace KeyReplay

open Occurrences PyText ReviewModel

/-- The text in front of a recorded key. -/
def keyTag : String := "idempotency_key="

/-- The tag occurs in `text`, and what follows it, up to the end of `rest`,
    begins with the key. -/
def ReadsAs (text rest key : String) : Prop :=
  ∃ before after, text = before ++ keyTag ++ after ∧ key.toList <+: (after ++ rest).toList

/-- What is stored behind the reviewer's own notes. -/
def recordedTail (k : String) : String := " [idempotency_key=" ++ k ++ "]"

/-- The notes and the key `k` are such that a call with `k'` finds its key: it
    is a prefix of the key and its bracket, or the key or the notes have a tag
    of their own that `k'` follows. -/
def Mistakable (notes : Option String) (k k' : String) : Prop :=
  k'.toList <+: (k ++ "]").toList ∨ ReadsAs k "]" k' ∨
    ReadsAs (notes.getD "") (recordedTail k) k'

/-- A further call returns the review exactly when its key is the recorded one
    and is refused otherwise, whatever else it carries. -/
def ComparesExactly (review : ReviewTask) (k k' : String) : Prop :=
  ∀ (reviewerId decision : String) (notes : Option String) (now : Nat),
    decideReview review reviewerId decision notes k' now
      = if k' = k then .ok review else .error ⟨review.reviewId⟩

/-! ## The substring test -/

theorem not_mem_keyTag : ' ' ∉ keyTag.toList ∧ '[' ∉ keyTag.toList ∧ ']' ∉ keyTag.toList := by
  decide

theorem not_mem_of_isSpace (c : Char) (hc : isSpace c = true) : c ∉ keyTag.toList := by
  have hall : (keyTag.toList.all fun d => !isSpace d) = true := by decide
  intro hmem
  have hnone := List.all_eq_true.mp hall c hmem
  rw [hc] at hnone
  cases hnone

/-- The tag's first letter occurs once in it. -/
theorem keyTag_cons : ∃ c m, keyTag.toList = c :: m ∧ c ∉ m :=
  ⟨'i', "dempotency_key=".toList, by decide, by decide⟩

theorem keyTag_ne_nil : keyTag.toList ≠ [] := by
  obtain ⟨c, m, hcons, -⟩ := keyTag_cons
  rw [hcons]
  exact List.cons_ne_nil c m

theorem readsAs_iff (text rest key : String) :
    ReadsAs text rest key ↔
      Followed keyTag.toList (fun after => key.toList <+: after ++ rest.toList) text.toList := by
  constructor
  · rintro ⟨before, after, rfl, hkey⟩
    refine ⟨before.toList, after.toList, ?_, by rwa [String.toList_append] at hkey⟩
    rw [String.toList_append, String.toList_append, List.append_assoc]
  · rintro ⟨before, after, htext, hkey⟩
    refine ⟨String.ofList before, String.ofList after, ?_, ?_⟩
    · rw [← String.toList_inj, htext, String.toList_append, String.toList_append,
        String.toList_ofList, String.toList_ofList, List.append_assoc]
    · rwa [String.toList_append, String.toList_ofList]

/-- A text that ends in a bracket loses only what `strip` takes in front. -/
theorem toList_strip_bracket (s : String) :
    (strip (s ++ "]")).toList = (s.toList ++ [']']).dropWhile isSpace := by
  have hbracket : ("]" : String).toList = [']'] := by decide
  have hkeep : isSpace ']' = false := by decide
  have hlast : ∃ front, (s.toList ++ [']']).dropWhile isSpace = front ++ [']'] := by
    rw [List.dropWhile_append]
    split
    · exact ⟨[], List.dropWhile_cons_of_neg (Bool.eq_false_iff.mp hkeep)⟩
    · exact ⟨_, rfl⟩
  obtain ⟨front, hfront⟩ := hlast
  rw [strip, String.toList_ofList, String.toList_append, hbracket, hfront, List.reverse_append]
  show (List.dropWhile isSpace (']' :: front.reverse)).reverse = _
  rw [List.dropWhile_cons_of_neg (Bool.eq_false_iff.mp hkeep), List.reverse_cons,
    List.reverse_reverse]

theorem toList_opening : (" [idempotency_key=" : String).toList = ' ' :: '[' :: keyTag.toList := by
  rw [keyTag]
  rfl

theorem toList_recordedTail (k : String) :
    (recordedTail k).toList = ' ' :: '[' :: (keyTag.toList ++ (k.toList ++ [']'])) := by
  show (" [idempotency_key=" ++ k ++ "]").toList = _
  have hbracket : ("]" : String).toList = [']'] := rfl
  rw [String.toList_append, String.toList_append, toList_opening, hbracket, List.append_assoc]
  rfl

/-- The occurrences of the tag in what is stored behind the notes. -/
theorem followed_recordedTail (k : String) (Q : List Char → Prop) :
    Followed keyTag.toList Q (recordedTail k).toList ↔
      Q (k.toList ++ [']']) ∨
        Followed keyTag.toList (fun after => Q (after ++ [']'])) k.toList := by
  obtain ⟨hspace, hopen, hclose⟩ := not_mem_keyTag
  obtain ⟨c, m, htag, hc⟩ := keyTag_cons
  have hmarker : Followed keyTag.toList Q (keyTag.toList ++ (k.toList ++ [']'])) ↔
      Q (k.toList ++ [']']) ∨ Followed keyTag.toList Q (k.toList ++ [']']) := by
    rw [htag]
    exact followed_marker hc _
  rw [toList_recordedTail, followed_cons hspace keyTag_ne_nil, followed_cons hopen keyTag_ne_nil,
    hmarker, followed_append_cons hclose keyTag_ne_nil,
    or_iff_left (not_followed_nil keyTag_ne_nil)]

/-- **WHERE THE KEY IS FOUND** in the stored notes: in the reviewer's own
    notes, at the recorded key, or inside it. -/
theorem occursIn_recordedNotes (notes : Option String) (k k' : String) :
    occursIn (keyTag ++ k') (recordedNotes notes k) = true ↔ Mistakable notes k k' := by
  have hbracket : ("]" : String).toList = [']'] := rfl
  have hstored : (notes.getD "" ++ " [idempotency_key=" ++ k).toList ++ [']']
      = (notes.getD "").toList ++ (recordedTail k).toList := by
    show _ = (notes.getD "").toList ++ (" [idempotency_key=" ++ k ++ "]").toList
    rw [String.toList_append, String.toList_append, String.toList_append, String.toList_append,
      hbracket, List.append_assoc, List.append_assoc, List.append_assoc]
  have hnotes : Followed keyTag.toList (k'.toList <+: ·)
      ((notes.getD "").toList ++ (recordedTail k).toList) ↔
        ReadsAs (notes.getD "") (recordedTail k) k' ∨
          Followed keyTag.toList (k'.toList <+: ·) (recordedTail k).toList := by
    rw [readsAs_iff, toList_recordedTail, followed_append_cons not_mem_keyTag.1 keyTag_ne_nil,
      followed_cons not_mem_keyTag.1 keyTag_ne_nil]
  rw [occursIn, decide_eq_true_eq, String.toList_append, recordedNotes, toList_strip_bracket,
    ← followed_prefix_iff, followed_dropWhile not_mem_of_isSpace keyTag_ne_nil, hstored, hnotes,
    followed_recordedTail, Mistakable, readsAs_iff k, String.toList_append, hbracket]
  exact or_comm.trans or_assoc

/-! ## A further call -/

theorem recordsKey_iff (notes : Option String) (k k' : String) :
    recordsKey (some (recordedNotes notes k)) k' = true ↔ Mistakable notes k k' := by
  rw [recordsKey, Bool.and_eq_true, decide_eq_true_eq]
  refine (and_iff_right_of_imp fun hoccurs hempty => ?_).trans (occursIn_recordedNotes notes k k')
  -- the tag does not occur in the empty string
  rw [hempty, occursIn, decide_eq_true_eq, String.toList_append, String.toList_empty,
    List.infix_nil, List.append_eq_nil_iff] at hoccurs
  exact keyTag_ne_nil hoccurs.1

theorem mistakable_self (notes : Option String) (k : String) : Mistakable notes k k := by
  refine Or.inl ?_
  rw [String.toList_append]
  exact List.prefix_append _ _

/-- A call on a decided review looks at its key only. -/
theorem decideReview_decided {review : ReviewTask} (h : review.status = .decided)
    (reviewerId decision : String) (notes : Option String) (k' : String) (now : Nat) :
    decideReview review reviewerId decision notes k' now
      = if recordsKey review.reviewerNotes k' then .ok review else .error ⟨review.reviewId⟩ := by
  rw [decideReview, if_pos h]

theorem comparesExactly_iff_recordsKey {review : ReviewTask} (h : review.status = .decided)
    (k k' : String) :
    ComparesExactly review k k' ↔ (recordsKey review.reviewerNotes k' = true ↔ k' = k) := by
  constructor
  · intro hexact
    have hone := (decideReview_decided h "" "" none k' 0).symm.trans (hexact "" "" none 0)
    by_cases hrecords : recordsKey review.reviewerNotes k' = true
    · rw [if_pos hrecords] at hone
      refine iff_of_true hrecords ?_
      by_contra hne
      rw [if_neg hne] at hone
      cases hone
    · rw [if_neg hrecords] at hone
      refine iff_of_false hrecords fun heq => ?_
      rw [if_pos heq] at hone
      cases hone
  · intro hiff reviewerId decision notes now
    rw [decideReview_decided h]
    exact if_congr hiff rfl rfl

/-- **WHEN KEYS ARE COMPARED EXACTLY**: after a decision with the key `k`, a
    call with `k'` is answered as it should be unless `k'` is another key that
    the notes, with `k` recorded behind them, can be read as. -/
theorem comparesExactly_iff (review : ReviewTask) (hpending : review.status = .pending)
    (reviewerId decision : String) (notes : Option String) (k : String) (now : Nat)
    (k' : String) :
    ∃ decided, decideReview review reviewerId decision notes k now = .ok decided ∧
      (ComparesExactly decided k k' ↔ (Mistakable notes k k' → k' = k)) := by
  have hnot : review.status ≠ .decided := by
    rw [hpending]
    intro h
    cases h
  refine ⟨_, by rw [decideReview, if_neg hnot], ?_⟩
  rw [comparesExactly_iff_recordsKey rfl, recordsKey_iff]
  exact ⟨Iff.mp, fun h => ⟨h, fun heq => heq ▸ mistakable_self notes k'⟩⟩

/-- A review nobody has decided. -/
def openReview : ReviewTask :=
  { reviewId := "REVIEW-1", caseId := "C1", reasonCodes := ["FAULT_UNCERTAIN"]
    assignedRole := "retail-operations" }

/-- Another key in the place of the recorded one. -/
theorem other_key_refused :
    ∃ decided, decideReview openReview "alice" "APPROVE" (some "ok") "key-1" 1 = .ok decided ∧
      (ComparesExactly decided "key-1" "key-2" ↔
        (Mistakable (some "ok") "key-1" "key-2" → "key-2" = "key-1")) :=
  comparesExactly_iff openReview rfl "alice" "APPROVE" (some "ok") "key-1" 1 "key-2"

/-- The review after a decision with the key `key-12`. -/
def decidedReview : ReviewTask :=
  { openReview with
    status := .decided
    reviewerId := some "alice"
    reviewerDecision := some "APPROVE"
    reviewerNotes := some (recordedNotes (some "ok") "key-12")
    decidedAt := some 1 }

/-- **A PREFIX OF THE KEY** is accepted in its place. -/
theorem prefix_accepted :
    decideReview openReview "alice" "APPROVE" (some "ok") "key-12" 1 = .ok decidedReview ∧
      decideReview decidedReview "bob" "REJECT" none "key-1" 2 = .ok decidedReview ∧
      ¬ ComparesExactly decidedReview "key-12" "key-1" := by
  have hfound : recordsKey decidedReview.reviewerNotes "key-1" = true :=
    (recordsKey_iff _ _ _).mpr (Or.inl (by decide))
  refine ⟨rfl, (decideReview_decided rfl ..).trans (if_pos hfound), fun h => ?_⟩
  have hkeys := ((comparesExactly_iff_recordsKey rfl "key-12" "key-1").mp h).mp hfound
  exact absurd hkeys (by decide)

end KeyReplay
