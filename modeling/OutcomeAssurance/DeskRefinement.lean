import OutcomeAssurance.CaseDesk
import OutcomeAssurance.CaseTraces
import OutcomeAssurance.Refinement

/-! # The case API is a desk

    The tables of the case store are represented by the files of a desk, and
    their clock columns by the dates of these.  Each call is answered alike on
    both, and each reading endpoint too; so thirteen tables, three kinds of
    deletes and a transaction that can abort come down to one file for each
    case. -/

namespace DeskRefinement

open KeyedTable Interleaving CaseModel PyDict PyRuntime TraceStorage Investigation Pipeline
open CaseStore CaseKeys CaseClock CaseOwnership CaseIsolation CaseApi CaseQueries CaseViews
open CaseTraces CaseDesk ReviewModel RedactedDisplay Refinement Runs
open ChainVerifier hiding Call

variable {R : Type} {api : Api R} {s s' : Store R} {d : Desk} {a : CaseArtifacts R}
  {caseId : String}

/-! ## The artifacts of a case -/

/-- A case with a fixture has artifacts, and its job is to persist them. -/
theorem artifacts_of_fixture {f : Fixture} (h : api.registry.loadCaseFixture caseId = some f) :
    ∃ a, artifactsOf api caseId = some a ∧
      runCasePipeline api.runtime f.case f.sources {} = .ok a ∧ a.case.caseId = caseId ∧
      ∀ s, f.job.persist api.runtime s = persistCaseRun api.runtime s a := by
  obtain ⟨a, hrun, hpersist⟩ := persist_eq api.runtime f.job
  refine ⟨a, ?_, hrun, ?_, hpersist⟩
  · have hrun : runCasePipeline api.runtime f.case f.sources {} = .ok a := hrun
    rw [artifactsOf, h]
    show Except.toOption _ = _
    rw [hrun]
    rfl
  · exact (congrArg Case.caseId (shaped_of_run hrun).2).trans (api.registry.loaded h).1

/-- Artifacts come from a fixture. -/
theorem fixture_of_artifacts (h : artifactsOf api caseId = some a) :
    ∃ f, api.registry.loadCaseFixture caseId = some f ∧
      runCasePipeline api.runtime f.case f.sources {} = .ok a ∧ a.case.caseId = caseId ∧
      ∀ s, f.job.persist api.runtime s = persistCaseRun api.runtime s a := by
  cases hload : api.registry.loadCaseFixture caseId with
  | none =>
      rw [artifactsOf, hload] at h
      cases h
  | some f =>
      obtain ⟨a', ha', hrun, hcase, hpersist⟩ := artifacts_of_fixture hload
      obtain rfl := Option.some.inj (h.symm.trans ha')
      exact ⟨f, rfl, hrun, hcase, hpersist⟩

theorem shaped_of_artifacts (h : artifactsOf api caseId = some a) : Shaped a := by
  obtain ⟨f, -, hrun, -, -⟩ := fixture_of_artifacts h
  exact (shaped_of_run hrun).1

/-! ## Representation -/

/-- The review on file is filed under its case. -/
def FiledUnder (c : String) (review : Option ReviewTask) : Prop :=
  ∀ r ∈ review, Owns c r

/-- The files of the desk are what the tables hold. -/
structure Represents (api : Api R) (s : Store R) (d : Desk) : Prop where
  owned : Owned s
  stored : ∀ c, c ∈ caseIds s ↔ ∃ file, d.get c = some file
  filed : ∀ c file, d.get c = some file → FiledUnder c file.review ∧
    ∃ a, artifactsOf api c = some a ∧ Shows s a file.version
  reviews : s.reviewTasks.rows = d.values.filterMap File.review

theorem represents_empty (api : Api R) : Represents api Store.empty (∅ : Desk) where
  owned := owned_empty
  stored c := ⟨fun h => absurd h List.not_mem_nil, fun ⟨_, h⟩ => by cases h⟩
  filed c file h := by cases h
  reviews := rfl

theorem getCase_of_none (h : Represents api s d) (hget : d.get caseId = none) :
    s.getCase caseId = none := by
  rw [getCase_eq_none, h.stored, hget]
  rintro ⟨file, hfile⟩
  cases hfile

theorem getCase_of_some (h : Represents api s d) {file : File} (hget : d.get caseId = some file)
    (ha : artifactsOf api caseId = some a) :
    s.getCase caseId = some (caseRow a file.version) ∧ Shows s a file.version := by
  obtain ⟨a', ha', hshows⟩ := (h.filed caseId file hget).2
  obtain rfl := Option.some.inj (ha.symm.trans ha')
  obtain ⟨f, -, -, hcase, -⟩ := fixture_of_artifacts ha
  exact ⟨hcase ▸ hshows.case, hshows⟩

/-- The next version of a case. -/
theorem version_eq (h : Represents api s d) :
    (s.replaceExistingCase caseId).2 = versionOf d caseId + 1 := by
  rw [Store.replaceExistingCase, versionOf]
  cases hget : d.get caseId with
  | none =>
      rw [getCase_of_none h hget]
  | some file =>
      obtain ⟨a, ha, -⟩ := (h.filed caseId file hget).2
      rw [(getCase_of_some h hget ha).1]
      rfl

theorem mem_content {β : Type} {f : CaseArtifacts R → File → List β} {x : β} :
    x ∈ content api d f ↔
      ∃ c file a, d.get c = some file ∧ artifactsOf api c = some a ∧ x ∈ f a file := by
  rw [content, List.mem_flatMap]
  constructor
  · rintro ⟨⟨c, file⟩, hmem, hx⟩
    cases ha : artifactsOf api c with
    | none =>
        simp only [ha] at hx
        exact absurd hx List.not_mem_nil
    | some a =>
        simp only [ha] at hx
        exact ⟨c, file, a, Dict.mem_items.mp hmem, ha, hx⟩
  · rintro ⟨c, file, a, hget, ha, hx⟩
    refine ⟨(c, file), Dict.mem_items.mpr hget, ?_⟩
    simp only [ha]
    exact hx

/-- The stored evidence is that of the files. -/
theorem mem_evidence (h : Represents api s d) {e : Evidence R} :
    e ∈ s.evidence.rows ↔
      ∃ file a, d.get e.caseId = some file ∧ artifactsOf api e.caseId = some a ∧
        e ∈ a.evidence := by
  constructor
  · intro he
    obtain ⟨file, hget⟩ := (h.stored e.caseId).mp (h.owned.evidence e he).1
    obtain ⟨a, ha, hshows⟩ := (h.filed e.caseId file hget).2
    obtain ⟨-, -, -, hcase, -⟩ := fixture_of_artifacts ha
    refine ⟨file, a, hget, ha, ?_⟩
    rw [← hshows.evidence]
    exact mem_rowsOf.mpr ⟨he, hcase.symm⟩
  · rintro ⟨file, a, hget, ha, he⟩
    have hshows := (getCase_of_some h hget ha).2
    rw [← hshows.evidence] at he
    exact (mem_rowsOf.mp he).1

/-! ## Running a case -/

/-- A run is persisted exactly when none of its sources is evidence elsewhere. -/
theorem persists_iff (h : Represents api s d) (ha : artifactsOf api caseId = some a) :
    (∃ s', persistCaseRun api.runtime s a = some s') ↔
      ¬ ∃ e ∈ a.evidence, e.sourceId ∈ sourcesElsewhere api d caseId := by
  obtain ⟨f, hload, hrun, hcase, -⟩ := fixture_of_artifacts ha
  have hshaped := shaped_of_artifacts ha
  rw [persist_isSome h.owned hshaped, Table.insert_isSome,
    and_iff_right (evidence_unclashed (j := f.job) hrun (api.registry.loaded hload).2)]
  constructor
  -- two rows of evidence clash by ids that are made of their source ids alone
  · rintro hclash ⟨e, he, helse⟩
    obtain ⟨c, file, b, hget, hb, hsource⟩ := mem_content.mp helse
    obtain ⟨e', he', hid⟩ := List.mem_map.mp hsource
    rw [Dict.get_pop] at hget
    split at hget
    · cases hget
    · next hne =>
        obtain ⟨-, -, -, hbcase, -⟩ := fixture_of_artifacts hb
        obtain ⟨hecase, heid⟩ := (shaped_of_artifacts hb).evidence e' he'
        have hcaseId : e'.caseId = c := hecase.trans hbcase
        have hstored : e' ∈ s.evidence.rows :=
          (mem_evidence h).mpr
            ⟨file, b, by rw [hcaseId]; exact hget, by rw [hcaseId]; exact hb, he'⟩
        refine hclash e' ((mem_kept_evidence h.owned).mpr ⟨hstored, ?_⟩) e he ?_
        · rw [hcaseId, hcase]
          exact hne
        · show e'.evidenceId = e.evidenceId
          rw [heid, (hshaped.evidence e he).2, hid]
  · intro hnone e' he' e he hclash
    obtain ⟨hstored, hne⟩ := (mem_kept_evidence h.owned).mp he'
    obtain ⟨file, b, hget, hb, hmem⟩ := (mem_evidence h).mp hstored
    rw [hcase] at hne
    refine hnone ⟨e, he, mem_content.mpr ⟨e'.caseId, file, b, ?_, hb, ?_⟩⟩
    · rw [Dict.get_pop, if_neg hne]
      exact hget
    · have hclash : e'.evidenceId = e.evidenceId := hclash
      rw [((shaped_of_artifacts hb).evidence e' hmem).2, (hshaped.evidence e he).2] at hclash
      exact List.mem_map.mpr ⟨e', hmem, (String.append_right_inj _).mp hclash⟩

/-- The reviews of all files but those of one case. -/
theorem reviews_pop (items : List (String × File))
    (hfiled : ∀ p ∈ items, ∀ r ∈ p.2.review, r.caseId = p.1) (c : String) :
    ((items.map Prod.snd).filterMap File.review).filter (fun r => r.caseId ≠ c) =
      ((items.filter fun p => p.1 ≠ c).map Prod.snd).filterMap File.review := by
  induction items with
  | nil => rfl
  | cons p items ih =>
      obtain ⟨hp, hfiled⟩ := List.forall_mem_cons.mp hfiled
      have ih := ih hfiled
      rw [List.map_cons, List.filterMap_cons, List.filter_cons]
      cases hreview : p.2.review with
      | none =>
          rw [ih]
          by_cases hc : p.1 = c
          · simp [hc]
          · simp [hc, hreview]
      | some r =>
          have hcase : r.caseId = p.1 := hp r hreview
          rw [List.filter_cons, hcase, ih]
          by_cases hc : p.1 = c
          · simp [hc]
          · simp [hc, hreview]

theorem kept_reviews (hs : Owned s) (a : CaseArtifacts R) :
    (kept s a).reviewTasks.rows =
      s.reviewTasks.rows.filter fun r => r.caseId ≠ a.case.caseId := by
  by_cases hstored : a.case.caseId ∈ caseIds s
  · rw [kept_of_stored hstored]
    refine List.filter_congr fun r _ => ?_
    simp
  · rw [kept_of_fresh hstored]
    refine (List.filter_eq_self.mpr fun r hr => ?_).symm
    obtain ⟨c, hc, hcase, -⟩ := hs.reviewTasks r hr
    refine decide_eq_true fun heq => hstored ?_
    rw [← heq, hcase]
    exact hc

/-- The reviews after a case has moved to the end. -/
theorem values_moved (d : Desk) (c : String) (file : File) :
    ((d.pop c).set c file).values = (d.pop c).values ++ [file] := by
  have hout : c ∉ (d.pop c).items.map Prod.fst := by
    intro hmem
    obtain ⟨p, hp, rfl⟩ := List.mem_map.mp hmem
    simpa using (List.mem_filter.mp hp).2
  show (put (d.pop c).items c file).map Prod.snd = _
  rw [put_of_notMem hout, List.map_append]
  rfl

/-- **A RUN ON BOTH LEVELS**: what is persisted is what the desk files. -/
theorem represents_persisted (h : Represents api s d) (ha : artifactsOf api caseId = some a)
    (hpersist : persistCaseRun api.runtime s a = some s') (t : Readings) :
    Represents api s' ((d.pop caseId).set caseId ⟨versionOf d caseId + 1, a.review, t⟩) ∧
      s'.getCase caseId = some (caseRow a (versionOf d caseId + 1)) := by
  obtain ⟨-, -, -, hcase, -⟩ := fixture_of_artifacts ha
  have hshaped := shaped_of_artifacts ha
  have hpersisted := (persisted_iff hshaped).mp hpersist
  have hshows := shows_persisted h.owned hshaped hpersisted
  rw [hcase, version_eq h] at hshows
  refine ⟨?_, hcase ▸ hshows.case⟩
  exact {
    owned := owned_persisted h.owned hshaped hpersisted
    stored := by
      intro c
      rw [Dict.get_set, Dict.get_pop]
      -- the case is stored by the run, every other is stored as it was
      by_cases hc : c = caseId
      · rw [if_pos hc]
        refine iff_of_true ?_ ⟨_, rfl⟩
        rw [hc, ← hcase]
        exact mem_caseIds_persisted hpersisted
      · rw [if_neg hc, if_neg hc, ← h.stored]
        constructor
        · intro hmem
          rw [caseIds_persisted hpersisted, List.mem_append, List.mem_singleton, hcase,
            or_iff_left hc] at hmem
          obtain ⟨r, hr, rfl⟩ := List.mem_map.mp hmem
          exact ((cleared_kept h.owned a).cases r hr).1
        · exact caseIds_mono hpersisted
    filed := by
      intro c file hget
      rw [Dict.get_set, Dict.get_pop] at hget
      split at hget
      · next hc =>
          obtain rfl := Option.some.inj hget
          subst hc
          refine ⟨fun r hr => ?_, a, ha, hshows⟩
          rw [← hcase]
          exact hshaped.review.1 r (Option.mem_toList.mpr hr)
      · next hc =>
          obtain ⟨hreview, b, hb, hother⟩ := h.filed c file hget
          obtain ⟨-, -, -, hbcase, -⟩ := fixture_of_artifacts hb
          refine ⟨hreview, b, hb, shows_other h.owned hshaped hpersisted hother ?_⟩
          rw [hbcase, hcase]
          exact hc
    reviews := by
      rw [Table.rows_of_insert hpersisted.reviewTasks, kept_reviews h.owned, h.reviews, hcase,
        values_moved, List.filterMap_append]
      have hpopped := reviews_pop d.items (fun p hp r hr =>
        ((h.filed p.1 p.2 (Dict.mem_items.mp hp)).1 r hr).1) caseId
      refine congrArg₂ (· ++ ·) hpopped ?_
      cases a.review <;> rfl }

/-- Running a case is answered alike, and leads to the same files. -/
theorem runAndPersist_refines (h : Represents api s d) (caseId : String) (t : Readings) :
    (api.runAndPersist s caseId).1 = (runCase api d caseId t).1 ∧
      Represents api (api.runAndPersist s caseId).2 (runCase api d caseId t).2 := by
  cases ha : artifactsOf api caseId with
  | none =>
      have hload : api.registry.loadCaseFixture caseId = none := by
        refine Option.eq_none_iff_forall_ne_some.mpr fun f hf => ?_
        obtain ⟨a, ha', -⟩ := artifacts_of_fixture hf
        cases ha.symm.trans ha'
      rw [Api.runAndPersist, hload, runCase, ha]
      exact ⟨rfl, h⟩
  | some a =>
      obtain ⟨f, hload, -, hcase, hpersist⟩ := fixture_of_artifacts ha
      have hname : f.case.caseId = caseId := (api.registry.loaded hload).1
      rw [Api.runAndPersist, hload, runCase, ha]
      by_cases hclash : ∃ e ∈ a.evidence, e.sourceId ∈ sourcesElsewhere api d caseId
      · have hnone : persistCaseRun api.runtime s a = none := by
          refine Option.eq_none_iff_forall_ne_some.mpr fun s' hs' => ?_
          exact (persists_iff h ha).mp ⟨s', hs'⟩ hclash
        simp only [hpersist, hnone, if_pos hclash, true_and]
        exact h
      · obtain ⟨s', hs'⟩ := (persists_iff h ha).mpr hclash
        obtain ⟨hrep, hget⟩ := represents_persisted h ha hs' t
        simp only [hpersist, hs', hname, hget, if_neg hclash, true_and]
        exact hrep

/-! ## Deciding a review -/

theorem get_reviews (h : Represents api s d) (reviewId : String) :
    s.reviewTasks.get reviewId = reviewOf d reviewId := by
  show s.reviewTasks.rows.find? _ = _
  rw [h.reviews]
  rfl

/-- Writing a decided review over the reviews is writing its file. -/
theorem reviews_put {loaded changed : ReviewTask} (hid : changed.reviewId = loaded.reviewId)
    {c : String} {version : Nat} {t : Readings} (items : List (String × File))
    (hnodup : (items.map Prod.fst).Nodup)
    (hfiled : ∀ p ∈ items, ∀ r ∈ p.2.review, r.reviewId = "REVIEW-" ++ p.1)
    (hloaded : ∃ file, (c, file) ∈ items ∧ file.review = some loaded) :
    ((items.map Prod.snd).filterMap File.review).map (rewriteReview (loaded, changed)) =
      ((put items c ⟨version, some changed, t⟩).map Prod.snd).filterMap File.review := by
  have hname : loaded.reviewId = "REVIEW-" ++ c := by
    obtain ⟨file, hmem, hreview⟩ := hloaded
    exact hfiled _ hmem loaded hreview
  -- the reviews of other cases are not written
  have hother : ∀ rest : List (String × File),
      (∀ p ∈ rest, ∀ r ∈ p.2.review, r.reviewId = "REVIEW-" ++ p.1) →
      c ∉ rest.map Prod.fst →
      ((rest.map Prod.snd).filterMap File.review).map (rewriteReview (loaded, changed)) =
        (rest.map Prod.snd).filterMap File.review := by
    intro rest hrest hout
    refine (List.map_congr_left fun r hr => ?_).trans (List.map_id _)
    obtain ⟨file, hfile, hreview⟩ := List.mem_filterMap.mp hr
    obtain ⟨p, hp, rfl⟩ := List.mem_map.mp hfile
    rw [rewriteReview, if_neg, id]
    intro heq
    refine hout (List.mem_map.mpr ⟨p, hp, ?_⟩)
    rw [hrest p hp r hreview, hname] at heq
    exact (String.append_right_inj _).mp heq
  induction items with
  | nil =>
      obtain ⟨file, hmem, -⟩ := hloaded
      exact absurd hmem List.not_mem_nil
  | cons p items ih =>
      obtain ⟨key, entry⟩ := p
      obtain ⟨hp, hfiled⟩ := List.forall_mem_cons.mp hfiled
      obtain ⟨hout, hnodup⟩ := List.nodup_cons.mp hnodup
      obtain ⟨file, hmem, hreview⟩ := hloaded
      rw [put]
      split
      · next hc =>
          have hc : key = c := hc
          subst hc
          have hentry : entry = file := by
            rcases List.mem_cons.mp hmem with heq | hrest
            · exact (congrArg Prod.snd heq).symm
            · exact absurd (List.mem_map.mpr ⟨_, hrest, rfl⟩) hout
          subst hentry
          rw [List.map_cons, List.filterMap_cons, hreview, List.map_cons, List.map_cons,
            List.filterMap_cons, hother items hfiled hout]
          refine congrArg (· :: _) ?_
          rw [rewriteReview, if_pos rfl]
          exact write_review_loaded hid
      · next hc =>
          have hrest : (c, file) ∈ items := by
            rcases List.mem_cons.mp hmem with heq | hrest
            · exact absurd (congrArg Prod.fst heq).symm hc
            · exact hrest
          have ih := ih hnodup hfiled ⟨file, hrest, hreview⟩
          rw [List.map_cons, List.filterMap_cons, List.map_cons, List.filterMap_cons]
          cases hentry : entry.review with
          | none => exact ih
          | some r =>
              rw [List.map_cons, ih]
              refine congrArg (· :: _) ?_
              rw [rewriteReview, if_neg]
              intro heq
              rw [hp r hentry, hname] at heq
              exact hc ((String.append_right_inj _).mp heq)

/-- A review on file is the review of its case. -/
theorem filed_of_get (h : Represents api s d) {reviewId : String} {loaded : ReviewTask}
    (hget : s.reviewTasks.get reviewId = some loaded) :
    ∃ file, d.get loaded.caseId = some file ∧ file.review = some loaded := by
  have hmem := Table.mem_of_get hget
  rw [h.reviews] at hmem
  obtain ⟨file, hfile, hreview⟩ := List.mem_filterMap.mp hmem
  obtain ⟨c, hc⟩ := Dict.mem_values.mp hfile
  obtain ⟨hcase, -⟩ := (h.filed c file hc).1 loaded hreview
  exact ⟨file, hcase ▸ hc, hreview⟩

/-- **A DECISION ON BOTH LEVELS**: a stored review is written over under its
    ids. -/
theorem represents_decided (h : Represents api s d) {reviewId : String}
    {loaded changed : ReviewTask} (hget : s.reviewTasks.get reviewId = some loaded)
    (hid : changed.reviewId = loaded.reviewId) (hcase : changed.caseId = loaded.caseId) :
    Represents api { s with reviewTasks := commitReview s.reviewTasks (loaded, changed) }
      (d.set loaded.caseId
        ⟨versionOf d loaded.caseId, some changed, readingsOf d loaded.caseId⟩) := by
  obtain ⟨file, hfile, hreview⟩ := filed_of_get h hget
  have hversion : versionOf d loaded.caseId = file.version := by rw [versionOf, hfile]
  obtain ⟨hunder, a, ha, hshows⟩ := h.filed loaded.caseId file hfile
  -- no view of a case shows its review, the one row that is written
  have hstill : ∀ {b : CaseArtifacts R} {version : Nat}, Shows s b version →
      Shows { s with reviewTasks := commitReview s.reviewTasks (loaded, changed) } b version :=
    fun hb => ⟨hb.1, hb.2, hb.3, hb.4, hb.5, hb.6, hb.7, hb.8, hb.9, hb.10⟩
  exact {
    owned := by
      refine { h.owned with reviewTasks := fun r hr => ?_ }
      obtain ⟨r', hr', rfl⟩ := List.mem_map.mp hr
      obtain ⟨c, hc, howns⟩ := h.owned.reviewTasks r' hr'
      refine ⟨c, hc, ?_, ?_⟩
      · rw [rewriteReview_caseId hcase]
        exact howns.1
      · rw [rewriteReview_reviewId]
        exact howns.2
    stored := by
      intro c
      rw [Dict.get_set]
      show c ∈ caseIds s ↔ _
      rw [h.stored]
      by_cases hc : c = loaded.caseId
      · rw [if_pos hc, hc]
        exact iff_of_true ⟨file, hfile⟩ ⟨_, rfl⟩
      · rw [if_neg hc]
    filed := by
      intro c entry hentry
      rw [Dict.get_set] at hentry
      split at hentry
      · next hc =>
          obtain rfl := Option.some.inj hentry
          subst hc
          refine ⟨fun r hr => ?_, a, ha, hversion ▸ hstill hshows⟩
          obtain rfl := Option.some.inj hr
          obtain ⟨hcaseId, hreviewId⟩ := hunder loaded hreview
          exact ⟨hcase.trans hcaseId, hid.trans hreviewId⟩
      · obtain ⟨hreview', b, hb, hother⟩ := h.filed c entry hentry
        exact ⟨hreview', b, hb, hstill hother⟩
    reviews := by
      show s.reviewTasks.rows.map _ = _
      rw [h.reviews]
      exact reviews_put hid d.items d.nodup
        (fun p hp r hr => ((h.filed p.1 p.2 (Dict.mem_items.mp hp)).1 r hr).2)
        ⟨file, Dict.mem_items.mpr hfile, hreview⟩ }

/-- A decision is answered alike, and leads to the same files. -/
theorem decide_refines (h : Represents api s d) (req : DecisionRequest) :
    (decision.alone req s.reviewTasks).1 = (CaseDesk.decide d req).1 ∧
      Represents api { s with reviewTasks := (decision.alone req s.reviewTasks).2 }
        (CaseDesk.decide d req).2 := by
  have hreview := get_reviews h req.reviewId
  rw [CaseDesk.decide, ← hreview]
  cases hget : s.reviewTasks.get req.reviewId with
  | none =>
      have hread : decision.read req s.reviewTasks = .inl (.reviewNotFound req.reviewId) := by
        show req.read s.reviewTasks = _
        rw [DecisionRequest.read, hget]
      rw [(Txn.step_idle_inl hread).2]
      exact ⟨rfl, h⟩
  | some loaded =>
      by_cases hrole : req.principal.role = loaded.assignedRole
      · cases hdecide : req.decide loaded with
        | error e =>
            have hread := (read_permitted hget hrole).1 e hdecide
            rw [(Txn.step_idle_inl hread).2]
            simp only [hrole, ne_eq, not_true_eq_false, if_false, hdecide, true_and]
            exact h
        | ok changed =>
            rw [(alone_of_ok hget hrole hdecide).2]
            simp only [hrole, ne_eq, not_true_eq_false, if_false, hdecide, true_and]
            obtain ⟨-, hid, hcase⟩ := decided_of_ok hdecide
            exact represents_decided h hget hid hcase
      · rw [(Txn.step_idle_inl (read_unpermitted hget hrole)).2]
        simp only [ne_eq, hrole, not_false_eq_true, if_true, true_and]
        exact h

/-! ## Every call -/

theorem runFixture_refines (h : Represents api s d) (caseId : String) (t : Readings) :
    let filed := if caseId ∈ api.registry.listAvailableCaseIds then runCase api d caseId t
      else (.caseFixtureNotFound caseId, d)
    (api.runFixture s caseId).1 = filed.1 ∧ Represents api (api.runFixture s caseId).2 filed.2 := by
  rw [Api.runFixture]
  by_cases hlisted : caseId ∈ api.registry.listAvailableCaseIds
  · simp only [hlisted, not_true_eq_false, if_false, if_true]
    exact runAndPersist_refines h caseId t
  · simp only [hlisted, not_false_eq_true, if_true, if_false, true_and]
    exact h

/-- **EACH CALL** is answered alike, and leads to the same files. -/
theorem handle_refines (h : Represents api s d) (call : Call) :
    (api.handle s call).1 = (CaseDesk.handle api d call).1 ∧
      Represents api (api.handle s call).2 (CaseDesk.handle api d call).2 := by
  rw [Api.handle, CaseDesk.handle]
  cases requireAuth api.tokens call.authorization with
  | error e => exact ⟨rfl, h⟩
  | ok principal =>
      cases call.request with
      | createCase caseId => exact runFixture_refines h caseId call.readings
      | runAndPersistCase caseId => exact runFixture_refines h caseId call.readings
      | replayCase caseId =>
          show (api.replayCase s caseId).1 = _ ∧ Represents api (api.replayCase s caseId).2 _
          rw [Api.replayCase]
          cases hget : d.get caseId with
          | none =>
              rw [getCase_of_none h hget]
              simp only [Dict.has, hget, Option.isSome_none, Bool.false_eq_true, if_false,
                true_and]
              exact h
          | some file =>
              obtain ⟨a, ha, -⟩ := (h.filed caseId file hget).2
              rw [(getCase_of_some h hget ha).1]
              simp only [Dict.has, hget, Option.isSome_some, if_true]
              exact runAndPersist_refines h caseId call.readings
      | postReviewDecision reviewId body =>
          obtain ⟨hanswer, hrep⟩ :=
            decide_refines h (decisionRequest principal reviewId body call.now)
          exact ⟨congrArg Response.decision hanswer, hrep⟩

theorem handle_simulation (api : Api R) :
    Simulation api.handle (CaseDesk.handle api) (Represents api) where
  answer h call := (handle_refines h call).1
  related h call := (handle_refines h call).2

/-! ## Dates -/

/-- The clock columns of the rows of a run are what the clock showed. -/
def DatedBy (clock : Clock) (a : CaseArtifacts R) (t : Readings) : Prop :=
  ∀ column, ∀ key ∈ keys a column, clock column key = t.columns column key

/-- Every row on file is dated by what the clock showed when its case was run
    last. -/
structure Stamped (api : Api R) (clock : Clock) (d : Desk) : Prop where
  rows : ∀ c file a, d.get c = some file → artifactsOf api c = some a →
    DatedBy clock a file.readings
  reviews : ∀ c file r, d.get c = some file → file.review = some r →
    clock .reviewCreatedAt r.reviewId = file.readings.columns .reviewCreatedAt r.reviewId

theorem stamped_empty (api : Api R) (clock : Clock) : Stamped api clock (∅ : Desk) where
  rows c file a h := by cases h
  reviews c file r h := by cases h

theorem stamp_of_artifacts (ha : artifactsOf api caseId = some a) (clock : Clock) (t : Readings) :
    api.stamp clock caseId t = clock.stamp a t := by
  obtain ⟨f, hload, hrun, -, -⟩ := fixture_of_artifacts ha
  simp only [Api.stamp, hload, hrun]

theorem readingsOf_of_get {file : File} (hget : d.get caseId = some file) :
    readingsOf d caseId = file.readings := by
  rw [readingsOf, hget]

/-- A run dates the rows of its case, and no others. -/
theorem stamped_run (h : Represents api s d) {clock : Clock} (hd : Stamped api clock d)
    (ha : artifactsOf api caseId = some a) (version : Nat) (t : Readings) :
    Stamped api (api.stamp clock caseId t)
      ((d.pop caseId).set caseId ⟨version, a.review, t⟩) := by
  rw [stamp_of_artifacts ha]
  obtain ⟨-, -, -, hcase, -⟩ := fixture_of_artifacts ha
  have hshaped := shaped_of_artifacts ha
  refine ⟨fun c file b hget hb column key hkey => ?_, fun c file r hget hreview => ?_⟩
  · rw [Dict.get_set, Dict.get_pop] at hget
    split at hget
    · next hc =>
        obtain rfl := Option.some.inj hget
        -- the file that the run has written: its rows are those that are stamped
        obtain rfl := Option.some.inj (ha.symm.trans (hc ▸ hb))
        exact stamp_of_mem hkey
    · next hc =>
        -- the rows of another case have other keys
        obtain ⟨-, -, -, hbcase, -⟩ := fixture_of_artifacts hb
        have hne : b.case.caseId ≠ a.case.caseId := by
          rw [hbcase, hcase]
          exact hc
        rw [stamp_of_notMem (keys_apart hshaped (shaped_of_artifacts hb) hne hkey)]
        exact hd.rows c file b hget hb column key hkey
  · rw [Dict.get_set, Dict.get_pop] at hget
    split at hget
    · obtain rfl := Option.some.inj hget
      have hreview : a.review = some r := hreview
      refine stamp_of_mem (List.mem_map.mpr ⟨r, ?_, rfl⟩)
      rw [hreview]
      exact Option.mem_toList.mpr rfl
    · next hc =>
        have howns := (h.filed c file hget).1 r hreview
        have hrow : ∀ x ∈ [r], Owns c x := by
          intro x hx
          rw [List.mem_singleton.mp hx]
          exact howns
        have hout : r.reviewId ∉ keys a .reviewCreatedAt :=
          keys_disjoint (hcase ▸ hc) hrow hshaped.review.1 (List.mem_singleton_self _)
        rw [stamp_of_notMem hout]
        exact hd.reviews c file r hget hreview

/-- A decision leaves the dates of its case. -/
theorem stamped_set {clock : Clock} (hd : Stamped api clock d) {file : File} {loaded : ReviewTask}
    (hget : d.get caseId = some file) (hreview : file.review = some loaded) {changed : ReviewTask}
    (hid : changed.reviewId = loaded.reviewId) (version : Nat) :
    Stamped api clock (d.set caseId ⟨version, some changed, readingsOf d caseId⟩) := by
  rw [readingsOf_of_get hget]
  refine ⟨fun c entry b hentry hb column key hkey => ?_, fun c entry r hentry hr => ?_⟩
  · rw [Dict.get_set] at hentry
    split at hentry
    · next hc =>
        obtain rfl := Option.some.inj hentry
        exact hd.rows c file b (hc ▸ hget) hb column key hkey
    · exact hd.rows c entry b hentry hb column key hkey
  · rw [Dict.get_set] at hentry
    split at hentry
    · next hc =>
        obtain rfl := Option.some.inj hentry
        obtain rfl := Option.some.inj hr
        rw [hid]
        exact hd.reviews c file loaded (hc ▸ hget) hreview
    · exact hd.reviews c entry r hentry hr

/-- The files of the desk are what the database holds. -/
structure Holds (api : Api R) (db : Database R) (d : Desk) : Prop where
  represents : Represents api db.tables d
  stamped : Stamped api db.clock d

theorem holds_empty (api : Api R) : Holds api Database.empty (∅ : Desk) :=
  ⟨represents_empty api, stamped_empty api _⟩

variable (api d) in
/-- A response that shows no row has no date, and leaves the clock columns. -/
theorem unshown_serve {response : Response} (h : ∀ clock, response.createdAt clock = none)
    (clock : Clock) (t : Readings) :
    api.clockAfter clock t response = clock ∧ CaseDesk.createdAt d response = none := by
  cases response with
  | case row => cases h clock
  | decision r =>
      cases r with
      | decided review => cases h clock
      | reviewNotFound | roleNotPermitted | reviewAlreadyDecided | staleData => exact ⟨rfl, rfl⟩
  | unauthorized | caseFixtureNotFound | caseNotFound | serverError => exact ⟨rfl, rfl⟩

/-- **EACH CALL** is answered alike, dates and all, and leads to the same files. -/
theorem serve_refines {db : Database R} (h : Holds api db d) (call : Call) :
    (api.serve db call).1 = (CaseDesk.serve api d call).1 ∧
      Holds api (api.serve db call).2 (CaseDesk.serve api d call).2 := by
  obtain ⟨hanswer, hrep⟩ := handle_refines h.represents call
  rw [serve_of_handle (Prod.ext hanswer rfl), CaseDesk.serve]
  cases filing api d call with
  | kept response unshown result =>
      rw [result] at hrep ⊢
      obtain ⟨hclock, hdate⟩ := unshown_serve api d unshown db.clock call.readings
      dsimp only
      rw [hclock, unshown, hdate]
      exact ⟨rfl, hrep, h.stamped⟩
  | ran c a version artifacts request result =>
      rw [result] at hrep ⊢
      obtain ⟨-, -, -, hcase, -⟩ := fixture_of_artifacts artifacts
      have hstamped := stamped_run h.represents h.stamped artifacts version call.readings
      have hget : ((d.pop c).set c ⟨version, a.review, call.readings⟩).get c =
          some ⟨version, a.review, call.readings⟩ := by
        rw [Dict.get_set, if_pos rfl]
      -- `created_at` is read back from the columns that the run has just written
      have hdate := hstamped.rows c _ a hget artifacts .caseCreatedAt c
        (List.mem_singleton.mpr hcase.symm)
      dsimp only [Api.clockAfter, Response.createdAt, CaseDesk.createdAt]
      have hrow : (caseRow a version).caseId = c := hcase
      rw [hrow, hdate, readingsOf_of_get hget]
      exact ⟨rfl, hrep, hstamped⟩
  | decided principal reviewId body loaded changed auth request found role ok result =>
      rw [result] at hrep ⊢
      obtain ⟨-, hid, hcase⟩ := decided_of_ok ok
      rw [← get_reviews h.represents] at found
      obtain ⟨file, hfile, hreview⟩ := filed_of_get h.represents found
      have hstamped := stamped_set h.stamped hfile hreview hid (versionOf d loaded.caseId)
      have hget : (d.set loaded.caseId ⟨versionOf d loaded.caseId, some changed,
          readingsOf d loaded.caseId⟩).get loaded.caseId =
          some ⟨versionOf d loaded.caseId, some changed, readingsOf d loaded.caseId⟩ := by
        rw [Dict.get_set, if_pos rfl]
      have hdate := hstamped.reviews loaded.caseId _ changed hget rfl
      dsimp only [Api.clockAfter, Response.createdAt, CaseDesk.createdAt]
      rw [hdate, hcase, readingsOf_of_get hget]
      exact ⟨rfl, hrep, hstamped⟩

theorem serve_simulation (api : Api R) :
    Simulation api.serve (CaseDesk.serve api) (Holds api) where
  answer h call := (serve_refines h call).1
  related h call := (serve_refines h call).2

/-! ## Every question -/

/-- The trace of a case, read in the order of its sequence. -/
theorem trace_read (ha : artifactsOf api caseId = some a) {version : Nat}
    (hshows : Shows s a version) :
    bySequence (rowsOf s.traceEvents TraceEvent.caseId caseId) = a.traceEvents := by
  obtain ⟨f, -, hrun, hcase, -⟩ := fixture_of_artifacts ha
  obtain ⟨t, ht, hevents⟩ := run_verifiable hrun
  have htrace := hshows.trace
  rw [hcase] at htrace
  rw [htrace, ← hevents]
  exact bySequence_perm (increasing_of_numbered ht.numbered) (List.Perm.refl _)

section Dated

variable {clock : Clock} {t : Readings}

theorem events_dated (hdated : DatedBy clock a t) :
    a.traceEvents.map (ShownTraceEvent.of clock) =
      a.traceEvents.map (ShownTraceEvent.of t.columns) := by
  refine List.map_congr_left fun e he => ?_
  rw [ShownTraceEvent.of, ShownTraceEvent.of,
    hdated .traceTimestamp e.traceId (List.mem_map_of_mem he)]

/-- The agent runs of a case are loaded as they were stored: they all start at
    once. -/
theorem runs_loaded (ha : artifactsOf api caseId = some a) {version : Nat}
    (hshows : Shows s a version) (hdated : DatedBy clock a t) :
    byStart ((rowsOf s.agentRuns AgentRun.caseId caseId).map (.of clock)) =
      a.agentRuns.map (.of t.columns) := by
  obtain ⟨-, -, -, hcase, -⟩ := fixture_of_artifacts ha
  have hruns := hshows.runs
  rw [hcase] at hruns
  have hrows : a.agentRuns.map (LoadedRun.of clock) =
      a.agentRuns.map (LoadedRun.of t.columns) := by
    refine List.map_congr_left fun r hr => ?_
    have hmem : r.agentRunId ∈ a.agentRuns.map AgentRun.agentRunId := List.mem_map_of_mem hr
    rw [LoadedRun.of, LoadedRun.of, hdated .runStartedAt _ hmem, hdated .runEndedAt _ hmem]
  rw [hruns, hrows, byStart]
  -- all runs start at once, so the sort leaves them in their order
  refine List.mergeSort_of_pairwise (List.pairwise_of_forall_mem_list fun x hx y hy => ?_)
  obtain ⟨r, -, rfl⟩ := List.mem_map.mp hx
  obtain ⟨r', -, rfl⟩ := List.mem_map.mp hy
  exact decide_eq_true (Int.le_refl t.startedAt)

/-- The steps of a loaded run are those of the run, whenever they are selected. -/
theorem steps_read (ha : artifactsOf api caseId = some a) {version : Nat}
    (hshows : Shows s a version) (hdated : DatedBy clock a t) {r : LoadedRun}
    (hr : r.run ∈ a.agentRuns) :
    ShownAgentRun.of clock s.agentSteps.rows r = .of t.columns a.agentSteps r := by
  obtain ⟨-, role, hrole⟩ := (shaped_of_artifacts ha).runs.1 r.run hr
  have hsteps : (s.agentSteps.rows.filter fun st => st.agentRunId = r.run.agentRunId) =
      a.agentSteps.filter fun st => st.agentRunId = r.run.agentRunId := by
    rw [hrole]
    exact hshows.steps role
  rw [ShownAgentRun.of, ShownAgentRun.of, hsteps]
  refine congrArg (ShownAgentRun.mk _ _ _ _ _ _ _ _ _ _ _ _) ?_
  refine List.map_congr_left fun st hst => ?_
  have hmem : st ∈ a.agentSteps := List.mem_of_mem_filter (List.mem_mergeSort.mp hst)
  rw [ShownStep.of, ShownStep.of, hdated .stepTimestamp st.stepId (List.mem_map_of_mem hmem)]

/-- A case has one report, so that is the latest one. -/
theorem report_read (hdated : DatedBy clock a t) :
    latestReport clock a.guardrailReport.toList =
      a.guardrailReport.map (.of t.columns) := by
  cases hreport : a.guardrailReport with
  | none => simp [latestReport]
  | some report =>
      have hmem : report.reportId ∈ keys a .reportCreatedAt := by
        rw [keys, hreport]
        exact List.mem_singleton_self _
      simp [latestReport, ShownReport.of, hdated _ _ hmem]

end Dated

/-- A question about one case is answered alike. -/
theorem ifStored_refines {db : Database R} (h : Holds api db d) {stored : CaseRow → Answer R}
    {filed : CaseArtifacts R → File → Answer R}
    (hanswer : ∀ a file, artifactsOf api caseId = some a → a.case.caseId = caseId →
      Shows db.tables a file.version → DatedBy db.clock a file.readings →
      stored (caseRow a file.version) = filed a file) :
    ifStored db.tables caseId stored = onFile api d caseId filed := by
  rw [ifStored, onFile]
  cases hget : d.get caseId with
  | none => rw [getCase_of_none h.represents hget]
  | some file =>
      obtain ⟨a, ha, -⟩ := (h.represents.filed caseId file hget).2
      obtain ⟨hrow, hshows⟩ := getCase_of_some h.represents hget ha
      obtain ⟨-, -, -, hcase, -⟩ := fixture_of_artifacts ha
      rw [hrow, ha]
      exact hanswer a file ha hcase hshows (h.stamped.rows caseId file a hget ha)

/-- A stored review is dated by its file. -/
theorem review_dated {db : Database R} (h : Holds api db d) {reviewId : String} {r : ReviewTask}
    (hget : db.tables.reviewTasks.get reviewId = some r) :
    ShownReview.of db.clock r = dated d r := by
  obtain ⟨file, hfile, hreview⟩ := filed_of_get h.represents hget
  rw [dated, ShownReview.of, ShownReview.of, readingsOf_of_get hfile,
    h.stamped.reviews r.caseId file r hfile hreview]

/-- **EACH QUESTION** is answered alike. -/
theorem answer_refines {db : Database R} (h : Holds api db d) (q : Query) :
    CaseQueries.answer api db q = CaseDesk.answer api d q := by
  -- what is stored of a case is shown alike, and dated by its file
  cases q with
  | caseDemo =>
      have hload : api.registry.loadCaseFixture "CASE-RET-001" = some api.registry.hero := rfl
      obtain ⟨a, ha, hrun, -, -⟩ := artifacts_of_fixture hload
      rw [CaseQueries.answer, CaseDesk.answer, ha]
      simp only [hrun]
  | listCaseFixtures => rfl
  | listAgentDefinitions => rfl
  | getCase caseId =>
      refine ifStored_refines h fun a file _ hcase _ hdated => ?_
      have hdate := hdated .caseCreatedAt a.case.caseId (List.mem_singleton_self _)
      have hrow : (caseRow a file.version).caseId = a.case.caseId := rfl
      rw [ShownCase.of, ShownCase.of, hrow, hdate]
  | getCaseEvidence caseId =>
      refine ifStored_refines h fun a file _ hcase hshows _ => ?_
      have hview := hshows.evidence
      rw [hcase] at hview
      rw [hview]
  | getCaseClaims caseId =>
      refine ifStored_refines h fun a file _ hcase hshows _ => ?_
      have hview := hshows.claims
      rw [hcase] at hview
      rw [hview]
  | getCaseAuthority caseId =>
      refine ifStored_refines h fun a file _ hcase hshows _ => ?_
      have hview := hshows.authority
      rw [hcase] at hview
      rw [hview]
      rfl
  | getCaseTrace caseId =>
      refine ifStored_refines h fun a file ha _ hshows hdated => ?_
      rw [trace_read ha hshows, events_dated hdated]
  | verifyCaseTrace caseId =>
      refine ifStored_refines h fun a file ha _ hshows _ => ?_
      obtain ⟨f, hload, hrun, -, -⟩ := fixture_of_artifacts ha
      have hname : f.case.caseId = caseId := (api.registry.loaded hload).1
      have hverify := verify_shown hrun hshows
      rw [hname] at hverify
      rw [hverify]
  | getCaseAgentRuns caseId =>
      refine ifStored_refines h fun a file ha _ hshows hdated => ?_
      rw [runs_loaded ha hshows hdated, List.map_map]
      refine congrArg Answer.agentRuns (List.map_congr_left fun r hr => ?_)
      exact steps_read ha hshows hdated hr
  | getCaseGuardrailReport caseId =>
      refine ifStored_refines h fun a file _ hcase hshows hdated => ?_
      have hview := hshows.report
      rw [hcase] at hview
      rw [hview, report_read hdated]
      cases a.guardrailReport <;> rfl
  | listReviews =>
      rw [CaseQueries.answer, CaseDesk.answer, ← h.represents.reviews]
      refine congrArg Answer.reviews (List.map_congr_left fun r hr => ?_)
      exact review_dated h (Table.get_key hr)
  | getReview reviewId =>
      rw [CaseQueries.answer, CaseDesk.answer, ← get_reviews h.represents]
      cases hget : db.tables.reviewTasks.get reviewId with
      | none => rfl
      | some r => exact congrArg Answer.review (review_dated h hget)

/-- **THE CASE API REFINES THE DESK**: any sequence of calls, by anyone, for any
    cases and reviews, is answered as a desk with one file for each case answers
    it, and so is every question afterwards. -/
theorem api_refines_desk (api : Api R) (calls : List Call) :
    answers api.serve Database.empty calls = answers (CaseDesk.serve api) (∅ : Desk) calls ∧
      ∀ q, CaseQueries.answer api (run (next api.serve) Database.empty calls) q =
        CaseDesk.answer api (run (next (CaseDesk.serve api)) ∅ calls) q :=
  ⟨(serve_simulation api).answers_eq (holds_empty api) calls,
    answer_refines ((serve_simulation api).run_related (holds_empty api) calls)⟩

end DeskRefinement
