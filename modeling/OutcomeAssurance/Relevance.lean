import Mathlib.Analysis.SpecialFunctions.Log.Basic
import OutcomeAssurance.Cosine
import OutcomeAssurance.RetrievalOrder

/-! # Relevance scores

    The scores of `app/retrieval.py` over the reals, in an arithmetic that
    fails where Python raises.  Nothing fails, and each score is a cosine
    between two vectors of non-negative weights. -/

namespace Relevance

open CaseModel PyDict PyRuntime Retrieval RetrievalOrder Cosine

variable {R : Type} {rt : Runtime R} {query : String} {candidates candidates' : List Source}

/-! ## Exact arithmetic -/

/-- The reals, without the final rounding; `none` is a `ZeroDivisionError` of a
    division or a `ValueError` of `math.log` or `math.sqrt`. -/
noncomputable def checkedReals : Numerics (Option ℝ) where
  ofNat n := some n
  add := Option.map₂ (· + ·)
  mul := Option.map₂ (· * ·)
  div x y := x.bind fun a => y.bind fun b => if b = 0 then none else some (a / b)
  sum := List.foldl (Option.map₂ (· + ·)) (some 0)
  log x := x.bind fun a => if 0 < a then some (Real.log a) else none
  sqrt x := x.bind fun a => if 0 ≤ a then some (√a) else none
  isZero x := decide (x = some 0)
  lt x y := (Option.map₂ (fun a b => decide (a < b)) x y).getD false
  round x _ := x

/-- The runtime with exact arithmetic. -/
noncomputable def exactly (rt : Runtime R) : Runtime (Option ℝ) :=
  { rt with numerics := checkedReals }

theorem foldl_checked (xs : List ℝ) (a : ℝ) :
    (xs.map some).foldl (Option.map₂ (· + ·)) (some a) = some (a + xs.sum) := by
  induction xs generalizing a with
  | nil => simp
  | cons x xs ih =>
      rw [List.map_cons, List.foldl_cons, Option.map₂_some_some, ih, List.sum_cons, add_assoc]

theorem sum_checked (xs : List ℝ) : checkedReals.sum (xs.map some) = some xs.sum := by
  rw [← zero_add xs.sum]
  exact foldl_checked xs 0

theorem div_checked {a b : ℝ} (hb : b ≠ 0) :
    checkedReals.div (some a) (some b) = some (a / b) := if_neg hb

theorem log_checked {a : ℝ} (ha : 0 < a) : checkedReals.log (some a) = some (Real.log a) :=
  if_pos ha

theorem sqrt_checked {a : ℝ} (ha : 0 ≤ a) : checkedReals.sqrt (some a) = some (√a) := if_pos ha

/-! ## Weights -/

variable {documents : List (List String)} {tokens : List String} {term : String}

/-- The smoothed inverse document frequency. -/
noncomputable def weight (documents : List (List String)) (term : String) : ℝ :=
  Real.log ((1 + documents.length : ℕ) / (1 + documents.countP (term ∈ ·) : ℕ)) + 1

/-- A term's weight in a document. -/
noncomputable def entry (tokens : List String) (documents : List (List String)) (term : String) :
    ℝ :=
  tokens.count term * weight documents term

theorem one_le_ratio (documents : List (List String)) (term : String) :
    (1 : ℝ) ≤ (1 + documents.length : ℕ) / (1 + documents.countP (term ∈ ·) : ℕ) := by
  rw [one_le_div (by positivity)]
  exact_mod_cast Nat.add_le_add_left List.countP_le_length 1

/-- No document has a term more often than there are documents, so the weight is
    at least one. -/
theorem one_le_weight (documents : List (List String)) (term : String) :
    1 ≤ weight documents term := by
  have hlog := Real.log_nonneg (one_le_ratio documents term)
  rw [weight]
  linarith

theorem idf_checked (documents : List (List String)) (term : String) :
    idf checkedReals term documents = some (weight documents term) := by
  have hratio := one_le_ratio documents term
  have hdivisor : ((1 + documents.countP (term ∈ ·) : ℕ) : ℝ) ≠ 0 := by positivity
  rw [idf]
  show checkedReals.add (checkedReals.log (checkedReals.div (some _) (some _))) (some _) = _
  rw [div_checked hdivisor, log_checked (lt_of_lt_of_le one_pos hratio)]
  show some _ = some _
  rw [weight, Nat.cast_one]

theorem entry_nonneg (tokens : List String) (documents : List (List String)) (term : String) :
    0 ≤ entry tokens documents term :=
  mul_nonneg (Nat.cast_nonneg _) (zero_le_one.trans (one_le_weight documents term))

theorem entry_eq_zero : entry tokens documents term = 0 ↔ term ∉ tokens := by
  have hweight : weight documents term ≠ 0 :=
    (lt_of_lt_of_le one_pos (one_le_weight documents term)).ne'
  rw [entry, mul_eq_zero, or_iff_left hweight, Nat.cast_eq_zero, List.count_eq_zero]

theorem vector_checked (tokens vocabulary : List String) (documents : List (List String)) :
    vector checkedReals tokens vocabulary documents
      = (vocabulary.map (entry tokens documents)).map some := by
  rw [vector, List.map_map]
  refine List.map_congr_left fun term _ => ?_
  rw [idf_checked]
  rfl

/-! ## The cosine -/

theorem zipWith_checked (vocabulary : List String) (f g : String → ℝ) :
    List.zipWith checkedReals.mul ((vocabulary.map f).map some) ((vocabulary.map g).map some)
      = (vocabulary.map fun term => f term * g term).map some := by
  induction vocabulary with
  | nil => rfl
  | cons term vocabulary ih =>
      simp only [List.map_cons, List.zipWith_cons_cons, ih]
      rfl

theorem squares_checked (vocabulary : List String) (f : String → ℝ) :
    ((vocabulary.map f).map some).map (fun x => checkedReals.mul x x)
      = (vocabulary.map fun term => f term * f term).map some := by
  rw [List.map_map, List.map_map, List.map_map]
  rfl

/-- Over a vocabulary without repetitions `_cosine_similarity` is the cosine. -/
theorem cosineSimilarity_checked {vocabulary : List String} (h : vocabulary.Nodup)
    (f g : String → ℝ) :
    cosineSimilarity checkedReals ((vocabulary.map f).map some) ((vocabulary.map g).map some)
      = some (cosine vocabulary.toFinset f g) := by
  have hsum (k : String → ℝ) : checkedReals.sum ((vocabulary.map k).map some)
      = some (∑ term ∈ vocabulary.toFinset, k term) := by
    rw [sum_checked, List.sum_toFinset k h]
  have hnorm (k : String → ℝ) :
      checkedReals.sqrt (some (∑ term ∈ vocabulary.toFinset, k term * k term))
        = some (√(∑ term ∈ vocabulary.toFinset, k term * k term)) :=
    sqrt_checked (sum_mul_self_nonneg _ k)
  have hzero (a : ℝ) : checkedReals.isZero (some a) = decide (a = 0) := by simp [checkedReals]
  rw [cosineSimilarity, zipWith_checked, squares_checked, squares_checked, hsum, hsum, hsum, hnorm,
    hnorm, hzero, hzero, cosine]
  by_cases hnull : √(∑ term ∈ vocabulary.toFinset, f term * f term) = 0
      ∨ √(∑ term ∈ vocabulary.toFinset, g term * g term) = 0
  · rw [if_pos (by simpa using hnull), mul_eq_zero.mpr hnull, div_zero]
    exact congrArg some Nat.cast_zero
  · rw [if_neg (by simpa using hnull)]
    exact div_checked (mt mul_eq_zero.mp hnull)

/-! ## Scores -/

/-- The query and the excerpts, tokenised. -/
def documentsOf (rt : Runtime R) (query : String) (candidates : List Source) :
    List (List String) :=
  tokenize rt query :: candidates.map fun c => tokenize rt c.text

/-- The score of a source among the candidates, as a real number. -/
noncomputable def relevance (rt : Runtime R) (query : String) (candidates : List Source)
    (s : Source) : ℝ :=
  let documents := documentsOf rt query candidates
  cosine (vocabularyOf documents).toFinset (entry (tokenize rt query) documents)
    (entry (tokenize rt s.text) documents)

theorem mem_vocabularyOf : term ∈ vocabularyOf documents ↔ ∃ tokens ∈ documents, term ∈ tokens := by
  rw [vocabularyOf, List.mem_mergeSort, List.mem_dedup, List.mem_flatten]

theorem nodup_vocabularyOf (documents : List (List String)) : (vocabularyOf documents).Nodup :=
  (List.mergeSort_perm _ _).nodup_iff.mpr (List.nodup_dedup _)

theorem queryTerm_mem (candidates : List Source) (h : term ∈ tokenize rt query) :
    term ∈ vocabularyOf (documentsOf rt query candidates) :=
  mem_vocabularyOf.mpr ⟨_, List.mem_cons_self, h⟩

/-- **NOTHING FAILS**: every score is a real number, the cosine of the vectors. -/
theorem scoreOf_exactly (rt : Runtime R) (query : String) (candidates : List Source) (s : Source) :
    scoreOf (exactly rt) query candidates s = some (relevance rt query candidates s) := by
  rw [scoreOf]
  by_cases hempty : vocabularyOf (documentsOf rt query candidates) = [] ∨ tokenize rt query = []
  · -- the early return agrees with the cosine of a vector of zeros
    have hquery : tokenize rt query = [] := by
      rcases hempty with hvocabulary | hquery
      · refine List.eq_nil_iff_forall_not_mem.mpr fun term hterm => ?_
        have hmem := queryTerm_mem candidates hterm
        rw [hvocabulary] at hmem
        exact absurd hmem List.not_mem_nil
      · exact hquery
    have hzero : relevance rt query candidates s = 0 := by
      refine (cosine_eq_zero_iff (fun t _ => entry_nonneg _ _ t) fun t _ => entry_nonneg _ _ t).mpr
        fun t _ => Or.inl (entry_eq_zero.mpr ?_)
      rw [hquery]
      exact List.not_mem_nil
    rw [hzero]
    exact (if_pos hempty).trans (congrArg some Nat.cast_zero)
  · refine (if_neg hempty).trans ?_
    show cosineSimilarity checkedReals
      (vector checkedReals (tokenize rt query) _ (documentsOf rt query candidates))
      (vector checkedReals (tokenize rt s.text) _ (documentsOf rt query candidates)) = _
    rw [vector_checked, vector_checked]
    exact cosineSimilarity_checked (nodup_vocabularyOf _) _ _

theorem relevance_nonneg (rt : Runtime R) (query : String) (candidates : List Source) (s : Source) :
    0 ≤ relevance rt query candidates s :=
  cosine_nonneg (fun t _ => entry_nonneg _ _ t) fun t _ => entry_nonneg _ _ t

theorem relevance_eq_zero {s : Source} : relevance rt query candidates s = 0 ↔
    ∀ term ∈ tokenize rt query, term ∉ tokenize rt s.text := by
  rw [relevance, cosine_eq_zero_iff (fun t _ => entry_nonneg _ _ t) fun t _ => entry_nonneg _ _ t]
  simp only [entry_eq_zero, List.mem_toFinset]
  constructor
  · intro h term hterm
    exact (h term (queryTerm_mem candidates hterm)).resolve_left (not_not_intro hterm)
  · intro h term _
    by_cases hterm : term ∈ tokenize rt query
    · exact Or.inr (h term hterm)
    · exact Or.inl hterm

theorem relevance_eq_one {s : Source} (hne : tokenize rt query ≠ [])
    (hperm : (tokenize rt query).Perm (tokenize rt s.text)) :
    relevance rt query candidates s = 1 := by
  obtain ⟨term, hterm⟩ := List.exists_mem_of_ne_nil _ hne
  have hsame : entry (tokenize rt s.text) (documentsOf rt query candidates)
      = entry (tokenize rt query) (documentsOf rt query candidates) := by
    funext t
    rw [entry, entry, hperm.count_eq]
  rw [relevance, hsame]
  exact cosine_self (List.mem_toFinset.mpr (queryTerm_mem candidates hterm))
    (mt entry_eq_zero.mp (not_not_intro hterm))

/-- What the score of a source is to be. -/
structure Similarity (rt : Runtime R) (query : String) (candidates : List Source) (s : Source)
    (x : ℝ) : Prop where
  /-- The arithmetic does not fail, and gives this number. -/
  scored : (scoreCandidates (exactly rt) query candidates).get s.sourceId = some (some x)
  nonneg : 0 ≤ x
  le_one : x ≤ 1
  zero_iff : x = 0 ↔ ∀ term ∈ tokenize rt query, term ∉ tokenize rt s.text
  one : tokenize rt query ≠ [] → (tokenize rt query).Perm (tokenize rt s.text) → x = 1
  /-- The candidates may come in any order. -/
  reordered : ∀ candidates', candidates.Perm candidates' →
    (scoreCandidates (exactly rt) query candidates').get s.sourceId = some (some x)

/-- **SCORES ARE A SIMILARITY**, for every query and every candidates with
    distinct ids, and no weight fails to be computed. -/
theorem scores_similar (rt : Runtime R) (query : String) (candidates : List Source)
    (hdistinct : (candidates.map Source.sourceId).Nodup) :
    (∀ s ∈ candidates, ∃ x, Similarity rt query candidates s x) ∧
      ∀ term, ∃ w, idf checkedReals term (documentsOf rt query candidates) = some w ∧ 0 < w := by
  constructor
  · intro s hs
    have hscored (l : List Source) (h : candidates.Perm l) :
        (scoreCandidates (exactly rt) query l).get s.sourceId
          = some (some (relevance rt query candidates s)) := by
      rw [get_scoreCandidates query ((h.map Source.sourceId).nodup_iff.mp hdistinct) (h.subset hs),
        ← scoreOf_perm query h, scoreOf_exactly]
    exact ⟨relevance rt query candidates s,
      { scored := hscored candidates (List.Perm.refl _)
        nonneg := relevance_nonneg rt query candidates s
        le_one := cosine_le_one _ _ _
        zero_iff := relevance_eq_zero
        one := relevance_eq_one
        reordered := hscored }⟩
  · intro term
    exact ⟨_, idf_checked _ term, lt_of_lt_of_le one_pos (one_le_weight _ term)⟩

/-- A policy and a regulation, scored against a request. -/
theorem request_scored : ∃ x, Similarity (default : Runtime Float) "refund please"
    [Fixtures.kogan, Fixtures.accc] Fixtures.accc x :=
  (scores_similar default "refund please" [Fixtures.kogan, Fixtures.accc] (by decide)).1 _
    (List.mem_cons_of_mem _ List.mem_cons_self)

end Relevance
