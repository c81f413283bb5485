import OutcomeAssurance.RedactedDisplay
import OutcomeAssurance.Substitution

/-! # Redaction is complete

    The patterns run one after the other, each over the markers of the earlier
    ones.  A marker is in brackets, which no pattern matches, and has nothing
    inside that a pattern needs; the two patterns that ask for word boundaries
    also leave word boundaries where they replace. -/

namespace RedactionComplete

open PyRuntime PyText Backtracking Guardrails RedactedDisplay

variable {R : Type} {rt : Runtime R} {p q : String × Pattern} {acc : String × List String}

/-! ## What every pattern needs -/

/-- An address has an `@`, a number has digits. -/
def piiChar (rt : Runtime R) (c : Char) : Bool := c = '@' || rt.isDigit c

/-- A pattern that its own marker, and any other, keeps clean. -/
structure Redactable (rt : Runtime R) (p : String × Pattern) : Prop where
  needs : Needs (piiChar rt) p.2
  only : Only (fun c => c ≠ '[' ∧ c ≠ ']') p.2
  marker : ∀ c ∈ ("REDACTED_" ++ p.1).toList, piiChar rt c = false
  bounds : Plain p.2 ∨ Fenced rt.isWord p.2

/-- A class without the brackets. -/
theorem apart {class' : Char → Bool} (hopen : class' '[' = false) (hclose : class' ']' = false)
    (c : Char) (hc : class' c = true) : decide (c ≠ '[' ∧ c ≠ ']') = true := by
  refine decide_eq_true ⟨?_, ?_⟩
  · rintro rfl
    rw [hopen] at hc
    cases hc
  · rintro rfl
    rw [hclose] at hc
    cases hc

theorem digit_apart (c : Char) (hc : rt.isDigit c = true) :
    decide (c ≠ '[' ∧ c ≠ ']') = true :=
  apart (rt.isDigit_ascii '[' (by decide)) (rt.isDigit_ascii ']' (by decide)) c hc

theorem digit_needed (c : Char) (hc : rt.isDigit c = true) : piiChar rt c = true := by
  rw [piiChar, hc, Bool.or_true]

theorem marker_plain (marker : String)
    (h : marker.toList.all (fun c => c.toNat < 128 && !(c = '@' || c.isDigit)) = true) :
    ∀ c ∈ marker.toList, piiChar rt c = false := by
  intro c hc
  obtain ⟨hascii, hplain⟩ := Bool.and_eq_true_iff.mp (List.all_eq_true.mp h c hc)
  rw [piiChar, rt.isDigit_ascii c (of_decide_eq_true hascii)]
  exact Bool.not_eq_true' _ ▸ hplain

theorem email_plain : Plain email := ⟨trivial, trivial, trivial, trivial, trivial⟩

theorem auPhone_fenced (rt : Runtime R) : Fenced rt.isWord (auPhone rt) :=
  Closed.fenced (by simp [Pattern.times, Closed, Plain])

theorem creditCard_fenced (rt : Runtime R) : Fenced rt.isWord (creditCard rt) :=
  Closed.fenced (by simp [Pattern.times, Closed, Plain])

theorem email_redactable : Redactable rt ("EMAIL", email) where
  needs := Or.inr (Or.inl fun _ hc => Bool.or_eq_true_iff.mpr (Or.inl hc))
  only := ⟨apart rfl rfl, apart rfl rfl, apart rfl rfl, apart rfl rfl, apart rfl rfl⟩
  marker := marker_plain "REDACTED_EMAIL" rfl
  bounds := Or.inl email_plain

theorem auPhone_redactable : Redactable rt ("AU_PHONE", auPhone rt) where
  needs := Or.inr (Or.inr (Or.inl digit_needed))
  only := by
    have hdigit (c : Char) : rt.isDigit c = true → decide (c ≠ '[' ∧ c ≠ ']') = true :=
      digit_apart c
    refine ⟨trivial, ⟨⟨apart rfl rfl, apart rfl rfl, apart rfl rfl, apart rfl rfl, apart rfl rfl⟩,
      apart rfl rfl, apart rfl rfl⟩, hdigit, hdigit, apart rfl rfl, ?_⟩
    exact ⟨hdigit, hdigit, hdigit, apart rfl rfl, hdigit, hdigit, hdigit, trivial⟩
  marker := marker_plain "REDACTED_AU_PHONE" rfl
  bounds := Or.inr (auPhone_fenced rt)

theorem creditCard_redactable : Redactable rt ("CREDIT_CARD", creditCard rt) where
  needs := Or.inr (Or.inl (Or.inl digit_needed))
  only := by
    have hdigit (c : Char) : rt.isDigit c = true → decide (c ≠ '[' ∧ c ≠ ']') = true :=
      digit_apart c
    have hgroup : Only (fun c => c ≠ '[' ∧ c ≠ ']')
        (.times 4 (.one rt.isDigit) (.opt (.one fun c => c = ' ' || c = '-'))) :=
      ⟨hdigit, hdigit, hdigit, hdigit, apart rfl rfl⟩
    exact ⟨trivial, hgroup, hgroup, hgroup, hdigit, hdigit, hdigit, hdigit, trivial⟩
  marker := marker_plain "REDACTED_CREDIT_CARD" rfl
  bounds := Or.inr (creditCard_fenced rt)

/-! ## One pattern after another -/

theorem search_eq_false {r : Pattern} {text : String} :
    search rt.isWord r text = false ↔ ¬ Occurs rt.isWord r none text.toList := by
  rw [← searchFrom_iff, Bool.not_eq_true, search]

/-- A step leaves none of its own pattern, and none of a pattern that was not
    there. -/
theorem redactStep_clean (hp : Redactable rt p) (hq : Redactable rt q)
    (hpair : Plain q.2 ∨ Fenced rt.isWord p.2)
    (h : q = p ∨ search rt.isWord q.2 acc.1 = false) :
    search rt.isWord q.2 (redactStep rt acc p).1 = false := by
  rw [redactStep]
  split
  case isTrue hmatch =>
    have hmarker : ("[REDACTED_" ++ p.1 ++ "]").toList
        = '[' :: (("REDACTED_" ++ p.1).toList ++ [']']) := by
      rw [String.toList_append, String.toList_append, String.toList_append]
      rfl
    rw [search_eq_false, sub, String.toList_ofList, hmarker]
    refine (substituted_subFrom hp.needs _ none _).clean hq.needs hp.marker hq.only ?_ ?_
      (Or.inr (Or.inl rfl))
    · rcases hq.bounds with hplain | hfenced
      · exact Or.inl hplain
      · exact hpair.imp_right fun hp => ⟨hfenced, hp⟩
    · exact h.imp (congrArg Prod.snd) search_eq_false.mp
  case isFalse hmatch =>
    rcases h with rfl | h
    · exact Bool.not_eq_true _ ▸ hmatch
    · exact h

/-- After a run of the patterns, in an order in which each one only comes after
    patterns it leaves alone, no match of any is left. -/
theorem redacted_clean (done : List (String × Pattern)) {todo : List (String × Pattern)}
    (hall : ∀ p ∈ done ++ todo, Redactable rt p)
    (hpair : (done ++ todo).Pairwise fun q p => Plain q.2 ∨ Fenced rt.isWord p.2)
    (hdone : ∀ q ∈ done, search rt.isWord q.2 acc.1 = false) :
    ∀ q ∈ done ++ todo, search rt.isWord q.2 (todo.foldl (redactStep rt) acc).1 = false := by
  induction todo generalizing done acc with
  | nil =>
      rw [List.append_nil]
      exact hdone
  | cons p todo ih =>
      have hsplit : done ++ p :: todo = (done ++ [p]) ++ todo := by simp
      rw [hsplit] at hall hpair ⊢
      refine ih (done ++ [p]) hall hpair fun q hq => ?_
      have hpred : Redactable rt p := hall p (by simp)
      refine redactStep_clean hpred (hall q (List.mem_append_left _ hq)) ?_ ?_
      · rcases List.mem_append.mp hq with hq | hq
        · exact List.pairwise_append.mp (List.pairwise_append.mp hpair).1 |>.2.2 q hq p
            (List.mem_singleton_self p)
        · obtain rfl := List.mem_singleton.mp hq
          exact hpred.bounds
      · rcases List.mem_append.mp hq with hq | hq
        · exact Or.inr (hdone q hq)
        · exact Or.inl (List.mem_singleton.mp hq)

theorem redactPii_clean (rt : Runtime R) (text : String) :
    ∀ p ∈ piiPatterns rt, search rt.isWord p.2 (redactPii rt text).1 = false := by
  refine redacted_clean [] ?_ ?_ fun q hq => absurd hq List.not_mem_nil
  · intro p hp
    rcases List.mem_cons.mp hp with rfl | hp
    · exact email_redactable
    · rcases List.mem_cons.mp hp with rfl | hp
      · exact auPhone_redactable
      · obtain rfl := List.mem_singleton.mp hp
        exact creditCard_redactable
  · -- addresses ask for no word boundary, cards leave one wherever they replace
    refine .cons (fun p _ => Or.inl email_plain) (.cons (fun p hp => ?_) (.cons ?_ .nil))
    · obtain rfl := List.mem_singleton.mp hp
      exact Or.inr (creditCard_fenced rt)
    · exact fun p hp => absurd hp List.not_mem_nil

/-- What `redact_pii` promises of a text. -/
structure CompletelyRedacted (rt : Runtime R) (text : String) : Prop where
  /-- No pattern matches what is left. -/
  complete : ∀ p ∈ piiPatterns rt, search rt.isWord p.2 (redactPii rt text).1 = false
  /-- A second call finds nothing and leaves it as it is. -/
  idempotent : redactPii rt (redactPii rt text).1 = ((redactPii rt text).1, [])
  /-- A text with nothing to redact comes back as it is. -/
  unchanged : (∀ p ∈ piiPatterns rt, search rt.isWord p.2 text = false) →
    redactPii rt text = (text, [])

/-- **REDACTION IS COMPLETE** and idempotent, for every text. -/
theorem completely_redacted (rt : Runtime R) (text : String) : CompletelyRedacted rt text where
  complete := redactPii_clean rt text
  idempotent := found_clean (redactPii_clean rt text)
  unchanged := found_clean

end RedactionComplete
