import OutcomeAssurance.DeskRefinement

/-! # Cases that share no source are strangers

    A run of one case can be refused because of another, when a source of it is
    evidence there.  That is all they have to do with each other: a set of cases
    that shares no candidate source with the rest is a deployment of its own,
    whatever else is called in between. -/

namespace CaseComponents

open CaseModel PyDict PyRuntime Investigation Pipeline CaseStore CaseClock CaseIsolation
open CaseOwnership CaseApi CaseQueries CaseDesk DeskRefinement ReviewModel Refinement Runs
open ChainVerifier hiding Call

variable {R : Type} {api : Api R} {d d' : Desk} {K : String → Prop} {c caseId : String}

/-! ## What a call is about -/

/-- The case whose review has this id. -/
def caseOfReview (reviewId : String) : Option String :=
  if "REVIEW-".toList <+: reviewId.toList then some (String.ofList (reviewId.toList.drop 7))
  else none

theorem drop_review (cs : List Char) : ("REVIEW-".toList ++ cs).drop 7 = cs := rfl

theorem caseOfReview_eq_some {reviewId : String} :
    caseOfReview reviewId = some c ↔ reviewId = "REVIEW-" ++ c := by
  rw [caseOfReview]
  constructor
  · intro h
    split at h
    · next hprefix =>
        obtain ⟨rest, hrest⟩ := hprefix
        rw [← hrest, drop_review] at h
        obtain rfl := Option.some.inj h
        refine String.ext (hrest.symm.trans ?_)
        rw [String.toList_append]
        exact congrArg _ String.toList_ofList.symm
    · cases h
  · rintro rfl
    rw [String.toList_append, if_pos (List.prefix_append _ _), drop_review, String.ofList_toList]

/-- The case that a call names. -/
def caseOfRequest : Request → Option String
  | .createCase caseId | .runAndPersistCase caseId | .replayCase caseId => some caseId
  | .postReviewDecision reviewId _ => caseOfReview reviewId

/-- The case that a question names. -/
def caseOfQuery : Query → Option String
  | .caseDemo | .listCaseFixtures | .listAgentDefinitions | .listReviews => none
  | .getCase caseId | .getCaseEvidence caseId | .getCaseClaims caseId | .getCaseAuthority caseId
  | .getCaseTrace caseId | .verifyCaseTrace caseId | .getCaseAgentRuns caseId
  | .getCaseGuardrailReport caseId => some caseId
  | .getReview reviewId => caseOfReview reviewId

/-- The call names a case of the set. -/
def About (K : String → Prop) (call : Call) : Prop := ∃ c ∈ caseOfRequest call.request, K c

instance [DecidablePred K] : DecidablePred (About K) := fun call =>
  match h : caseOfRequest call.request with
  | none => isFalse fun ⟨_, hc, _⟩ => by rw [h] at hc; cases hc
  | some c =>
      if hc : K c then isTrue ⟨c, h, hc⟩
      else isFalse fun ⟨c', hc', hK⟩ => by
        obtain rfl := Option.some.inj (h.symm.trans hc')
        exact hc hK

/-- Two cases whose fixtures have a candidate source in common. -/
def Linked (api : Api R) (c c' : String) : Prop :=
  ∃ f ∈ api.registry.loadCaseFixture c, ∃ f' ∈ api.registry.loadCaseFixture c',
    ¬ Apart f.job f'.job

/-- No case of the set is linked to one outside. -/
def Closed (api : Api R) (K : String → Prop) : Prop := ∀ c c', K c → Linked api c c' → K c'

theorem candidates_of_artifacts {a : CaseArtifacts R} (ha : artifactsOf api c = some a) :
    ∃ f ∈ api.registry.loadCaseFixture c,
      a.evidence.map Evidence.sourceId = f.job.candidateIds := by
  obtain ⟨f, hload, hrun, -, -⟩ := fixture_of_artifacts ha
  exact ⟨f, hload, evidence_of_run (j := f.job) hrun⟩

/-- Evidence from one source in two cases links them. -/
theorem linked_of_source {a a' : CaseArtifacts R} (ha : artifactsOf api c = some a)
    (ha' : artifactsOf api caseId = some a') {e : Evidence R} (he : e ∈ a.evidence)
    (hsource : e.sourceId ∈ a'.evidence.map Evidence.sourceId) : Linked api c caseId := by
  obtain ⟨f, hf, hids⟩ := candidates_of_artifacts ha
  obtain ⟨f', hf', hids'⟩ := candidates_of_artifacts ha'
  refine ⟨f, hf, f', hf', fun hapart => ?_⟩
  rw [hids'] at hsource
  refine hapart e.sourceId ?_ hsource
  rw [← hids]
  exact List.mem_map_of_mem he

/-! ## Tidy desks -/

/-- Every review is filed under its case. -/
def Tidy (d : Desk) : Prop := ∀ c file, d.get c = some file → FiledUnder c file.review

/-- The review on file under an id is that of the case it names. -/
theorem filed_of_reviewOf (hd : Tidy d) {reviewId : String} {r : ReviewTask}
    (h : CaseDesk.reviewOf d reviewId = some r) :
    reviewId = "REVIEW-" ++ r.caseId ∧
      ∃ file, d.get r.caseId = some file ∧ file.review = some r := by
  have hid : r.reviewId = reviewId := by simpa using List.find?_some h
  obtain ⟨file, hfile, hreview⟩ := List.mem_filterMap.mp (List.mem_of_find?_eq_some h)
  obtain ⟨c, hget⟩ := Dict.mem_values.mp hfile
  obtain ⟨hcase, hreviewId⟩ := hd c file hget r hreview
  rw [hcase]
  exact ⟨hid.symm.trans hreviewId, file, hget, hreview⟩

theorem reviewOf_eq_some (hd : Tidy d) {r : ReviewTask} :
    CaseDesk.reviewOf d ("REVIEW-" ++ c) = some r ↔
      ∃ file, d.get c = some file ∧ file.review = some r := by
  have hfound : ∀ {r : ReviewTask}, CaseDesk.reviewOf d ("REVIEW-" ++ c) = some r →
      ∃ file, d.get c = some file ∧ file.review = some r := by
    intro r h
    obtain ⟨hid, hfiled⟩ := filed_of_reviewOf hd h
    rw [(String.append_right_inj _).mp hid]
    exact hfiled
  constructor
  · exact hfound
  · rintro ⟨file, hget, hreview⟩
    have hmem : r ∈ d.values.filterMap File.review :=
      List.mem_filterMap.mpr ⟨file, Dict.mem_values.mpr ⟨c, hget⟩, hreview⟩
    cases hfind : CaseDesk.reviewOf d ("REVIEW-" ++ c) with
    | none =>
        have hid := (hd c file hget r hreview).2
        exact absurd hid (by simpa using List.find?_eq_none.mp hfind r hmem)
    | some r' =>
        obtain ⟨file', hget', hreview'⟩ := hfound hfind
        obtain rfl := Option.some.inj (hget.symm.trans hget')
        exact hreview'.symm.trans hreview

theorem tidy_empty : Tidy (∅ : Desk) := by
  intro c file h
  cases h

theorem tidy_set (hd : Tidy d) {file : File} (hfile : FiledUnder c file.review) :
    Tidy (d.set c file) := by
  intro c' file' hget
  rw [Dict.get_set] at hget
  split at hget
  · next hc =>
      obtain rfl := Option.some.inj hget
      rw [hc]
      exact hfile
  · exact hd c' file' hget

theorem tidy_pop (hd : Tidy d) : Tidy (d.pop c) := by
  intro c' file hget
  rw [Dict.get_pop] at hget
  split at hget
  · cases hget
  · exact hd c' file hget

/-- The review that a run opens is the review of its case. -/
theorem filedUnder_of_artifacts {a : CaseArtifacts R} (ha : artifactsOf api c = some a) :
    FiledUnder c a.review := by
  intro r hr
  obtain ⟨-, -, -, hcase, -⟩ := fixture_of_artifacts ha
  rw [← hcase]
  exact (shaped_of_artifacts ha).review.1 r (Option.mem_toList.mpr hr)

/-! ## Desks that agree on a set of cases -/

/-- Two tidy desks with the same files for the cases of the set. -/
structure Agree (K : String → Prop) (d d' : Desk) : Prop where
  left : Tidy d
  right : Tidy d'
  same : ∀ c, K c → d.get c = d'.get c

theorem Agree.version_eq (h : Agree K d d') (hc : K c) : versionOf d c = versionOf d' c := by
  rw [versionOf, versionOf, h.same c hc]

theorem Agree.readings_eq (h : Agree K d d') (hc : K c) : readingsOf d c = readingsOf d' c := by
  rw [readingsOf, readingsOf, h.same c hc]

theorem Agree.set (h : Agree K d d') {file : File} (hfile : FiledUnder c file.review) :
    Agree K (d.set c file) (d'.set c file) where
  left := tidy_set h.left hfile
  right := tidy_set h.right hfile
  same c' hc' := by rw [Dict.get_set, Dict.get_set, h.same c' hc']

theorem Agree.pop (h : Agree K d d') : Agree K (d.pop c) (d'.pop c) where
  left := tidy_pop h.left
  right := tidy_pop h.right
  same c' hc' := by rw [Dict.get_pop, Dict.get_pop, h.same c' hc']

theorem Agree.set_left (h : Agree K d d') (hc : ¬ K c) {file : File}
    (hfile : FiledUnder c file.review) : Agree K (d.set c file) d' where
  left := tidy_set h.left hfile
  right := h.right
  same c' hc' := by
    rw [Dict.get_set, if_neg, h.same c' hc']
    rintro rfl
    exact hc hc'

theorem Agree.pop_left (h : Agree K d d') (hc : ¬ K c) : Agree K (d.pop c) d' where
  left := tidy_pop h.left
  right := h.right
  same c' hc' := by
    rw [Dict.get_pop, if_neg, h.same c' hc']
    rintro rfl
    exact hc hc'

theorem Agree.reviewOf_eq (h : Agree K d d') (hc : K c) :
    CaseDesk.reviewOf d ("REVIEW-" ++ c) = CaseDesk.reviewOf d' ("REVIEW-" ++ c) := by
  refine Option.ext fun r => ?_
  rw [reviewOf_eq_some h.left, reviewOf_eq_some h.right, h.same c hc]

/-- The files that can block a run are files of the set. -/
theorem Agree.blocked_iff (h : Agree K d d') (hclosed : Closed api K) (hc : K c)
    {a : CaseArtifacts R} (ha : artifactsOf api c = some a) :
    (∃ e ∈ a.evidence, e.sourceId ∈ sourcesElsewhere api d c) ↔
      ∃ e ∈ a.evidence, e.sourceId ∈ sourcesElsewhere api d' c := by
  -- a file with a source of the case is linked to it, so it is in the set
  refine exists_congr fun e => and_congr_right fun he => ?_
  rw [sourcesElsewhere, sourcesElsewhere, mem_content, mem_content]
  refine exists_congr fun c' => exists_congr fun file => exists_congr fun a' => ?_
  refine and_congr_left fun hmem => ?_
  obtain ⟨ha', hsource⟩ := hmem
  rw [h.pop.same c' (hclosed c c' hc (linked_of_source ha ha' he hsource))]

/-! ## Calls -/

theorem Agree.runCase (h : Agree K d d') (hclosed : Closed api K) (hc : K c) (t : Readings) :
    (CaseDesk.runCase api d c t).1 = (CaseDesk.runCase api d' c t).1 ∧
      Agree K (CaseDesk.runCase api d c t).2 (CaseDesk.runCase api d' c t).2 := by
  rw [CaseDesk.runCase, CaseDesk.runCase]
  cases ha : artifactsOf api c with
  | none => exact ⟨rfl, h⟩
  | some a =>
      simp only [h.blocked_iff hclosed hc ha, h.version_eq hc]
      split
      · exact ⟨rfl, h⟩
      · exact ⟨rfl, h.pop.set (filedUnder_of_artifacts ha)⟩

theorem Agree.runCase_left (h : Agree K d d') (hc : ¬ K c) (t : Readings) :
    Agree K (CaseDesk.runCase api d c t).2 d' := by
  rw [CaseDesk.runCase]
  cases ha : artifactsOf api c with
  | none => exact h
  | some a =>
      dsimp only
      split
      · exact h
      · exact (h.pop_left hc).set_left hc (filedUnder_of_artifacts ha)

/-- What a decision writes is a review of the case it names. -/
theorem filedUnder_decided (hd : Tidy d) {req : DecisionRequest} {r changed : ReviewTask}
    (hfind : CaseDesk.reviewOf d req.reviewId = some r) (hok : req.decide r = .ok changed) :
    FiledUnder r.caseId (some changed) := by
  obtain ⟨-, file, hget, hreview⟩ := filed_of_reviewOf hd hfind
  obtain ⟨-, hid, hcase⟩ := decided_of_ok hok
  intro r' hr'
  obtain rfl := Option.some.inj hr'
  exact ⟨hcase, hid.trans (hd r.caseId file hget r hreview).2⟩

theorem Agree.decide (h : Agree K d d') {req : DecisionRequest}
    (hc : K c) (hreq : req.reviewId = "REVIEW-" ++ c) :
    (CaseDesk.decide d req).1 = (CaseDesk.decide d' req).1 ∧
      Agree K (CaseDesk.decide d req).2 (CaseDesk.decide d' req).2 := by
  have hreview := h.reviewOf_eq hc
  rw [← hreq] at hreview
  rw [CaseDesk.decide, CaseDesk.decide, ← hreview]
  cases hfind : CaseDesk.reviewOf d req.reviewId with
  | none => exact ⟨rfl, h⟩
  | some r =>
      obtain ⟨hname, -⟩ := filed_of_reviewOf h.left hfind
      have hcase : c = r.caseId := (String.append_right_inj _).mp (hreq.symm.trans hname)
      dsimp only
      split
      · exact ⟨rfl, h⟩
      · cases hok : req.decide r with
        | error e => exact ⟨rfl, h⟩
        | ok changed =>
            refine ⟨rfl, ?_⟩
            dsimp only
            rw [h.version_eq (hcase ▸ hc), h.readings_eq (hcase ▸ hc)]
            exact h.set (filedUnder_decided h.left hfind hok)

theorem Agree.decide_left (h : Agree K d d') {req : DecisionRequest}
    (hout : ∀ c, req.reviewId = "REVIEW-" ++ c → ¬ K c) :
    Agree K (CaseDesk.decide d req).2 d' := by
  rw [CaseDesk.decide]
  cases hfind : CaseDesk.reviewOf d req.reviewId with
  | none => exact h
  | some r =>
      obtain ⟨hname, -⟩ := filed_of_reviewOf h.left hfind
      dsimp only
      split
      · exact h
      · cases hok : req.decide r with
        | error e => exact h
        | ok changed => exact h.set_left (hout _ hname) (filedUnder_decided h.left hfind hok)

/-- **A CLOSED SET OF CASES IS A PART OF THE DESK**: calls that name them are
    answered by their files, and no other call touches these. -/
theorem part_of_closed (hclosed : Closed api K) :
    Part (CaseDesk.handle api) (About K) (Agree K) where
  inside := by
    -- a call of the set sees only files of the set
    intro d d' h call hcall
    obtain ⟨c, hname, hc⟩ := hcall
    rw [next, next, CaseDesk.handle, CaseDesk.handle]
    cases requireAuth api.tokens call.authorization with
    | error e => exact ⟨rfl, h⟩
    | ok principal =>
        cases hrequest : call.request with
        | createCase caseId =>
            rw [hrequest] at hname
            obtain rfl := Option.some.inj hname
            dsimp only
            split
            · exact h.runCase hclosed hc call.readings
            · exact ⟨rfl, h⟩
        | runAndPersistCase caseId =>
            rw [hrequest] at hname
            obtain rfl := Option.some.inj hname
            dsimp only
            split
            · exact h.runCase hclosed hc call.readings
            · exact ⟨rfl, h⟩
        | replayCase caseId =>
            rw [hrequest] at hname
            obtain rfl := Option.some.inj hname
            dsimp only
            rw [Dict.has, Dict.has, h.same _ hc]
            split
            · exact h.runCase hclosed hc call.readings
            · exact ⟨rfl, h⟩
        | postReviewDecision reviewId body =>
            rw [hrequest] at hname
            have hreview : (decisionRequest principal reviewId body call.now).reviewId =
                "REVIEW-" ++ _ := caseOfReview_eq_some.mp hname
            obtain ⟨hanswer, hagree⟩ := h.decide hc hreview
            exact ⟨congrArg Response.decision hanswer, hagree⟩
  outside := by
    intro d d' h call hcall
    rw [next, CaseDesk.handle]
    cases requireAuth api.tokens call.authorization with
    | error e => exact h
    | ok principal =>
        have hout : ∀ c, caseOfRequest call.request = some c → ¬ K c :=
          fun c hname hc => hcall ⟨c, hname, hc⟩
        cases hrequest : call.request with
        | createCase caseId =>
            have hc := hout caseId (by rw [hrequest]; rfl)
            dsimp only
            split
            · exact h.runCase_left hc call.readings
            · exact h
        | runAndPersistCase caseId =>
            have hc := hout caseId (by rw [hrequest]; rfl)
            dsimp only
            split
            · exact h.runCase_left hc call.readings
            · exact h
        | replayCase caseId =>
            have hc := hout caseId (by rw [hrequest]; rfl)
            dsimp only
            split
            · exact h.runCase_left hc call.readings
            · exact h
        | postReviewDecision reviewId body =>
            refine h.decide_left fun c hname => hout c ?_
            rw [hrequest]
            exact caseOfReview_eq_some.mpr hname

/-- The case of the row that a response shows. -/
def caseShown : Response → Option String
  | .case row => some row.caseId
  | .decision (.decided review) => some review.caseId
  | _ => none

/-- A response to a call that names a case shows a row of that case, if any. -/
theorem caseShown_handle (hd : Tidy d) {call : Call} (hname : caseOfRequest call.request = some c)
    {c' : String} (hshown : caseShown (CaseDesk.handle api d call).1 = some c') : c' = c := by
  cases filing api d call with
  | kept response unshown result =>
      rw [result] at hshown
      cases response with
      | case row => cases unshown default
      | decision r =>
          cases r with
          | decided review => cases unshown default
          | reviewNotFound | roleNotPermitted | reviewAlreadyDecided | staleData => cases hshown
      | unauthorized | caseFixtureNotFound | caseNotFound | serverError => cases hshown
  | ran c₁ a version artifacts request result =>
      rw [result] at hshown
      obtain ⟨-, -, -, hcase, -⟩ := fixture_of_artifacts artifacts
      obtain rfl := Option.some.inj hshown
      have hran : c₁ = c := by
        rcases request with hrequest | hrequest | hrequest <;>
          · rw [hrequest] at hname
            exact Option.some.inj hname
      exact hcase.trans hran
  | decided principal reviewId body loaded changed auth request found role ok result =>
      rw [result] at hshown
      rw [request] at hname
      obtain rfl := Option.some.inj hshown
      obtain ⟨-, -, hcase⟩ := decided_of_ok ok
      obtain ⟨hid, -⟩ := filed_of_reviewOf hd found
      rw [hcase]
      exact (String.append_right_inj _).mp (hid.symm.trans (caseOfReview_eq_some.mp hname))

theorem Agree.createdAt (h : Agree K d d') {response : Response}
    (hshown : ∀ c, caseShown response = some c → K c) :
    CaseDesk.createdAt d response = CaseDesk.createdAt d' response := by
  cases response with
  | case row => rw [CaseDesk.createdAt, CaseDesk.createdAt, h.readings_eq (hshown _ rfl)]
  | decision r =>
      cases r with
      | decided review => rw [CaseDesk.createdAt, CaseDesk.createdAt, h.readings_eq (hshown _ rfl)]
      | reviewNotFound | roleNotPermitted | reviewAlreadyDecided | staleData => rfl
  | unauthorized | caseFixtureNotFound | caseNotFound | serverError => rfl

/-- The dates of what is shown belong to the same part. -/
theorem part_of_closed_dated (hclosed : Closed api K) :
    Part (CaseDesk.serve api) (About K) (Agree K) where
  inside := by
    intro d d' h call hcall
    obtain ⟨hanswer, hagree⟩ := (part_of_closed hclosed).inside h call hcall
    obtain ⟨c, hname, hc⟩ := hcall
    refine ⟨?_, hagree⟩
    have hserve : ∀ d : Desk, (CaseDesk.serve api d call).1 = ((CaseDesk.handle api d call).1,
        CaseDesk.createdAt (next (CaseDesk.handle api) d call) (CaseDesk.handle api d call).1) :=
      fun _ => rfl
    rw [hserve, hserve, ← hanswer, hagree.createdAt]
    intro c' hshown
    rw [caseShown_handle h.left hname hshown]
    exact hc
  outside h call hcall := (part_of_closed hclosed).outside h call hcall

/-! ## Questions -/

theorem Agree.onFile (h : Agree K d d') (hc : K c) (f : CaseArtifacts R → File → Answer R) :
    CaseDesk.onFile api d c f = CaseDesk.onFile api d' c f := by
  rw [CaseDesk.onFile, CaseDesk.onFile, h.same c hc]

theorem Agree.answer (h : Agree K d d') {q : Query} (hq : ∃ c ∈ caseOfQuery q, K c) :
    CaseDesk.answer api d q = CaseDesk.answer api d' q := by
  obtain ⟨c, hname, hc⟩ := hq
  cases q with
  | caseDemo => cases hname
  | listCaseFixtures => cases hname
  | listAgentDefinitions => cases hname
  | listReviews => cases hname
  | getReview reviewId =>
      obtain rfl := caseOfReview_eq_some.mp hname
      rw [CaseDesk.answer, CaseDesk.answer, h.reviewOf_eq hc]
      cases hfound : CaseDesk.reviewOf d' ("REVIEW-" ++ c) with
      | none => rfl
      | some r =>
          obtain ⟨hid, -⟩ := filed_of_reviewOf h.right hfound
          have hcase : r.caseId = c := ((String.append_right_inj _).mp hid).symm
          dsimp only
          rw [dated, dated, hcase, h.readings_eq hc]
  | getCase caseId
  | getCaseEvidence caseId
  | getCaseClaims caseId
  | getCaseAuthority caseId
  | getCaseTrace caseId
  | verifyCaseTrace caseId
  | getCaseAgentRuns caseId
  | getCaseGuardrailReport caseId =>
      obtain rfl := Option.some.inj hname
      exact h.onFile hc _

/-- **UNLINKED CASES ARE STRANGERS**: where no case of a set shares a candidate
    source with one outside, the calls that name the set's cases are answered,
    in any history, as if there had been no others; and so is every question
    about these cases afterwards. -/
theorem closed_alone (api : Api R) (K : String → Prop) [DecidablePred K] (hclosed : Closed api K)
    (calls : List Call) :
    answersTo api.serve (About K) Database.empty calls =
        answers api.serve Database.empty (calls.filter fun call => About K call) ∧
      ∀ q, (∃ c ∈ caseOfQuery q, K c) →
        CaseQueries.answer api (run (next api.serve) Database.empty calls) q =
          CaseQueries.answer api (run (next api.serve) Database.empty
            (calls.filter fun call => About K call)) q := by
  have hempty : Agree K (∅ : Desk) ∅ := ⟨tidy_empty, tidy_empty, fun _ _ => rfl⟩
  have hsim := serve_simulation api
  have hstart := holds_empty api
  have hpart := part_of_closed_dated hclosed
  constructor
  · rw [hsim.answersTo_eq hstart, hpart.answersTo_eq hempty, hsim.answers_eq hstart]
  · intro q hq
    rw [answer_refines (hsim.run_related hstart _), answer_refines (hsim.run_related hstart _)]
    exact (hpart.run_agree hempty calls).answer hq

/-- A deployment in which the two cases on offer have different sources. -/
def twoCases : Api Float where
  runtime := default
  registry := {
    hero := ⟨Fixtures.hero, [Fixtures.kogan]⟩
    extra := ⟨[("CASE-RET-002", ⟨Fixtures.majorFaultCase, [Fixtures.faultMajor]⟩)], by decide⟩
    heroNamed := rfl
    extraNamed := by decide
    heroDistinct := by decide
    extraDistinct := by decide }
  tokens := defaultTokens

theorem hero_closed : Closed twoCases (· = "CASE-RET-001") := by
  rintro c c' rfl ⟨f, hf, f', hf', hlinked⟩
  obtain rfl : twoCases.registry.hero = f := Option.some.inj hf
  by_contra hne
  have hget : twoCases.registry.extra.get c' = some f' := by
    rw [← hf', Registry.loadCaseFixture, if_neg hne]
  obtain rfl : f' = ⟨Fixtures.majorFaultCase, [Fixtures.faultMajor]⟩ :=
    congrArg Prod.snd (List.mem_singleton.mp (Dict.mem_items.mpr hget))
  exact hlinked (by decide)

/-- The run of the other case in between is not noticed. -/
theorem hero_alone :
    let call (request : Request) : Call :=
      ⟨some "Bearer dev-local-demo-token", request, 0, default⟩
    let calls := [call (.createCase "CASE-RET-001"), call (.createCase "CASE-RET-002"),
      call (.replayCase "CASE-RET-001")]
    Closed twoCases (· = "CASE-RET-001") ∧
      answersTo twoCases.serve (About (· = "CASE-RET-001")) Database.empty calls =
        answers twoCases.serve Database.empty
          [call (.createCase "CASE-RET-001"), call (.replayCase "CASE-RET-001")] :=
  ⟨hero_closed, (closed_alone twoCases (· = "CASE-RET-001") hero_closed _).1⟩

end CaseComponents
