import Mathlib.Data.List.Dedup
import OutcomeAssurance.CaseModel

/-! # Retrieval scoring

    `app/retrieval.py`: TF-IDF vectors over the tokens of the query and of
    every candidate's excerpt, and their cosine similarity.  The arithmetic is
    a parameter, so the same definitions run on doubles and on the reals. -/

namespace Retrieval

open CaseModel PyDict PyRuntime

variable {R : Type} (rt : Runtime R)

/-! ## Tokens -/

def stopwords : List String :=
  ["a", "an", "the", "is", "are", "was", "were", "be", "been", "to", "of", "in", "on",
   "and", "or", "but", "can", "may", "for", "with", "this", "that", "it", "please"]

/-- The class `[a-z0-9]`. -/
def isTokenChar (c : Char) : Bool := c.isLower || c.isDigit

/-- `_normalize`: strips a plural `s`. -/
def normalize (token : List Char) : List Char :=
  if token.length > 4 ∧ ['s'] <:+ token ∧ ¬ ['s', 's'] <:+ token then token.dropLast else token

/-- `tokenize`: the maximal runs of token characters that are no stopwords. -/
def tokenize (text : String) : List String :=
  let runs := ((rt.lower text).toList.splitOnP (fun c => !isTokenChar c)).filter (· ≠ [])
  (runs.filter (fun t => String.ofList t ∉ stopwords)).map fun t => String.ofList (normalize t)

/-- `build_query`. -/
def buildQuery (c : Case) : String :=
  let texts := c.event.values.filterMap fun
    | .text s => some s
    | .other _ => none
  " ".intercalate ((c.customerRequest :: c.productRef :: texts).filter (· ≠ ""))

/-! ## Vectors -/

variable (nx : Numerics R)

/-- `_idf`, smoothed by one. -/
def idf (term : String) (documents : List (List String)) : R :=
  let containing := documents.countP (term ∈ ·)
  nx.add (nx.log (nx.div (nx.ofNat (1 + documents.length)) (nx.ofNat (1 + containing))))
    (nx.ofNat 1)

/-- `_vector`. -/
def vector (tokens vocabulary : List String) (documents : List (List String)) : List R :=
  vocabulary.map fun term => nx.mul (nx.ofNat (tokens.count term)) (idf nx term documents)

/-- `_cosine_similarity`. -/
def cosineSimilarity (a b : List R) : R :=
  let dot := nx.sum (List.zipWith nx.mul a b)
  let normA := nx.sqrt (nx.sum (a.map fun x => nx.mul x x))
  let normB := nx.sqrt (nx.sum (b.map fun y => nx.mul y y))
  if nx.isZero normA || nx.isZero normB then nx.ofNat 0
  else nx.div dot (nx.mul normA normB)

/-! ## Scores -/

/-- The sorted terms of all documents. -/
def vocabularyOf (documents : List (List String)) : List String :=
  documents.flatten.dedup.mergeSort fun a b => a ≤ b

/-- `score_candidates`. -/
def scoreCandidates (query : String) (candidates : List Source) : Dict String R :=
  let queryTokens := tokenize rt query
  let candidateTokens := candidates.map fun c => tokenize rt c.text
  let documents := queryTokens :: candidateTokens
  let vocabulary := vocabularyOf documents
  if vocabulary = [] ∨ queryTokens = [] then
    Dict.ofPairs (candidates.map fun c => (c.sourceId, rt.numerics.ofNat 0))
  else
    let queryVector := vector rt.numerics queryTokens vocabulary documents
    Dict.ofPairs ((candidates.zip candidateTokens).map fun p =>
      (p.1.sourceId, rt.numerics.round
        (cosineSimilarity rt.numerics queryVector
          (vector rt.numerics p.2 vocabulary documents)) 6))

/-- `is_low_relevance`, against the threshold 0.05. -/
def isLowRelevance (score : R) : Bool := nx.lt score (nx.div (nx.ofNat 5) (nx.ofNat 100))

end Retrieval
