import OutcomeAssurance.CaseDecision
import OutcomeAssurance.CaseTraces
import OutcomeAssurance.Citations

/-! # What every stored case guarantees

    The control chain, read off the rows: no stored authority lets a refund
    through, a case waits for a review exactly when one is filed, and what the
    rows of a case cite in their JSON columns are rows of the same case. -/

namespace ControlChain

open KeyedTable CaseModel PyDict PyRuntime TraceChain
open Investigation Validation Resolution Guardrails Pipeline CaseDecision Citations
open CaseStore CaseKeys CaseOwnership CaseIsolation CaseQueries CaseViews CaseTraces Runs
open ReviewModel

variable {R : Type} {rt : Runtime R} {c : Case} {sources : List Source} {budget : RunBudget}
  {a : CaseArtifacts R} {s s' : Store R}

/-! ## The two ways a run ends -/

/-- How a run ends: stopped by the budget, or with all stages recorded. -/
inductive Ended (rt : Runtime R) (c : Case) (sources : List Source) (budget : RunBudget) :
    CaseArtifacts R → Prop where
  | blocked (e : BudgetExceeded) (runs : List AgentRun) :
      Ended rt c sources budget (blockedArtifacts rt c e runs
        ((openedTrace rt c.caseId).record rt (transitionEntry .created .investigating)))
  | completed (scanned : List Entry) (review : Entry)
      (hscanned : ∀ e ∈ scanned, e.stage = "GUARDRAILS" ∧ e.toolName = none ∧
        e.evidenceIds ⊆ (runEvidence rt c sources).map Evidence.evidenceId)
      (hreview : review.stage = "AUTHORISE" ∧ review.toolName = none ∧ review.evidenceIds = []) :
      Ended rt c sources budget (completedArtifacts rt c sources budget (runReview rt c sources)
        (runReport rt c sources) (runEntries rt c sources scanned review))

theorem ended_of_run (h : runCasePipeline rt c sources budget = .ok a) :
    Ended rt c sources budget a := by
  by_cases hspent : budget.Spent
  · rw [run_of_spent hspent] at h
    obtain rfl := Except.ok.inj h
    exact .blocked _ _
  · obtain ⟨scanned, review, hscanned, hreview, hrun⟩ := run_entries rt c sources hspent
    obtain rfl := Except.ok.inj (h.symm.trans hrun)
    exact .completed scanned review hscanned hreview

/-! ## No refund -/

/-- What a run decides, and where its case is left. -/
structure Restrained (a : CaseArtifacts R) : Prop where
  decision : a.authority.decision ≠ .allow
  denied : a.authority.decision = .deny ↔ a.terminationStatus = .completed
  reviewed : a.review.isSome = true ↔ a.terminationStatus = .needsReview
  refund : ∀ cl ∈ a.claims, cl.claimType = .autoRefundPermitted → cl.status = .false

/-- The refund claim is FALSE whatever the evidence. -/
theorem refund_false (rt : Runtime R) (c : Case) (evidence : List (Evidence R)) :
    ∀ cl ∈ resolvedClaims rt c evidence, cl.claimType = .autoRefundPermitted →
      cl.status = .false := by
  intro cl hcl htype
  simp only [resolvedClaims, List.mem_cons, List.not_mem_nil, or_false] at hcl
  rcases hcl with rfl | rfl | rfl | rfl | rfl | rfl | rfl | rfl
  case inr.inr.inr.inr.inr.inr.inl => rfl
  all_goals cases htype

/-- **EVERY RUN IS RESTRAINED**: it never allows, and files a review exactly when
    it leaves its case to one. -/
theorem restrained_of_run (h : runCasePipeline rt c sources budget = .ok a) : Restrained a := by
  cases ended_of_run h with
  | blocked e runs =>
      refine ⟨nofun, iff_of_false nofun nofun, iff_of_false nofun nofun, ?_⟩
      intro cl hcl
      exact absurd hcl List.not_mem_nil
  | completed scanned review hscanned hreview =>
      have hdecision := runAuthority_decision rt c sources
      have hhuman : (runReview rt c sources).isSome = true ↔
          (runAuthority rt c sources).decision = .requireHuman :=
        reviewOf_isSome (runAuthority_reasonCodes rt c sources)
      have hstatus : (completedArtifacts rt c sources budget (runReview rt c sources)
          (runReport rt c sources) (runEntries rt c sources scanned review)).terminationStatus =
          if (runReview rt c sources).isSome then .needsReview else .completed := rfl
      refine ⟨?_, ?_, ?_, refund_false rt c _⟩
      · show (runAuthority rt c sources).decision ≠ .allow
        rw [hdecision]
        split <;> nofun
      · rw [hstatus]
        show (runAuthority rt c sources).decision = .deny ↔ _
        by_cases hsome : (runReview rt c sources).isSome = true
        · rw [if_pos hsome, hhuman.mp hsome]
          exact iff_of_false nofun nofun
        · rw [if_neg hsome]
          refine iff_of_true ?_ rfl
          have hnot := mt hhuman.mpr hsome
          rw [hdecision] at hnot ⊢
          split at hnot
          · next hdeny => exact if_pos hdeny
          · exact absurd rfl hnot
      · rw [hstatus]
        split
        · next hsome => exact iff_of_true hsome rfl
        · next hnone => exact iff_of_false hnone nofun

/-! ## Reviews in the store -/

/-- A case waits for a review exactly when one is stored for it. -/
def Reviewed (s : Store R) : Prop :=
  ∀ row ∈ s.cases.rows,
    (∃ r ∈ s.reviewTasks.rows, r.caseId = row.caseId) ↔ row.status = "NEEDS_REVIEW"

theorem mem_kept_cases {row : CaseRow} :
    row ∈ (kept s a).cases.rows ↔ row ∈ s.cases.rows ∧ row.caseId ≠ a.case.caseId := by
  by_cases hc : a.case.caseId ∈ caseIds s
  · rw [kept_of_stored hc]
    exact Table.mem_delete.trans (and_congr_right fun _ => decide_eq_false_iff_not)
  · rw [kept_of_fresh hc]
    refine ⟨fun hrow => ⟨hrow, fun heq => hc ?_⟩, And.left⟩
    exact List.mem_map.mpr ⟨row, hrow, heq⟩

/-- A persisted run leaves a review for its own case alone. -/
theorem reviewed_persisted (hs : Owned s) (hreviewed : Reviewed s) (ha : Shaped a)
    (hrestrained : Restrained a) (h : Persisted rt s a s') : Reviewed s' := by
  intro row hrow
  rw [Table.rows_of_insert h.cases, List.mem_append, List.mem_singleton, mem_kept_cases] at hrow
  rw [Table.rows_of_insert h.reviewTasks]
  simp only [List.mem_append, mem_kept_reviewTasks hs]
  rcases hrow with ⟨hstored, hother⟩ | rfl
  · -- the reviews of another case are what they were
    refine Iff.trans ⟨?_, ?_⟩ (hreviewed row hstored)
    · rintro ⟨r, hr | hr, hcase⟩
      · exact ⟨r, hr.1, hcase⟩
      · exact absurd (((ha.review.1 r hr).1).symm.trans hcase).symm hother
    · rintro ⟨r, hr, hcase⟩
      exact ⟨r, Or.inl ⟨hr, hcase ▸ hother⟩, hcase⟩
  · have hstatus : (caseRow a (s.replaceExistingCase a.case.caseId).2).status = "NEEDS_REVIEW" ↔
        a.terminationStatus = .needsReview := by
      show a.terminationStatus.value = _ ↔ _
      cases a.terminationStatus <;> decide
    rw [hstatus, ← hrestrained.reviewed]
    constructor
    · rintro ⟨r, hr | hr, hcase⟩
      · exact absurd hcase hr.2
      · exact Option.isSome_iff_exists.mpr ⟨r, Option.mem_toList.mp hr⟩
    · intro hsome
      obtain ⟨r, hr⟩ := Option.isSome_iff_exists.mp hsome
      have hmem : r ∈ a.review.toList := Option.mem_toList.mpr hr
      exact ⟨r, Or.inr hmem, (ha.review.1 r hmem).1⟩

/-- A decision rewrites a review under the case it has. -/
theorem reviewed_decided (hreviewed : Reviewed s) (req : DecisionRequest) :
    Reviewed { s with reviewTasks := (decision.alone req s.reviewTasks).2 } := by
  rcases decision_alone req s.reviewTasks with ⟨r, halone, -⟩ |
    ⟨loaded, changed, -, hok, -, halone⟩
  · rw [halone]
    exact hreviewed
  · rw [halone]
    obtain ⟨-, -, hcase⟩ := decided_of_ok hok
    intro row hrow
    refine Iff.trans ⟨?_, ?_⟩ (hreviewed row hrow)
    · rintro ⟨r, hr, hr'⟩
      obtain ⟨r₀, hr₀, rfl⟩ := List.mem_map.mp hr
      exact ⟨r₀, hr₀, (rewriteReview_caseId hcase r₀).symm.trans hr'⟩
    · rintro ⟨r, hr, hr'⟩
      exact ⟨_, List.mem_map.mpr ⟨r, hr, rfl⟩, (rewriteReview_caseId hcase r).trans hr'⟩

theorem reviewed_write (hs : Current rt s) (hreviewed : Reviewed s) (w : Write) :
    Reviewed (write rt s w) := by
  cases w with
  | run j =>
      rw [write, step]
      cases h : j.persist rt s with
      | none => exact hreviewed
      | some s' =>
          obtain ⟨a, hrun, -, hpersisted, -⟩ := persisted_of_persist hs.owned h
          exact reviewed_persisted hs.owned hreviewed (shaped_of_run hrun).1
            (restrained_of_run hrun) hpersisted
  | decide req => exact reviewed_decided hreviewed req

theorem reviewed_run (rt : Runtime R) (history : List Write) :
    Reviewed (run (write rt) Store.empty history) := by
  have hstep : ∀ s w, Current rt s ∧ Reviewed s → Current rt (write rt s w) ∧
      Reviewed (write rt s w) :=
    fun _ w hs => ⟨current_write hs.1 w, reviewed_write hs.1 hs.2 w⟩
  have hempty : Reviewed (Store.empty : Store R) := fun _ hrow => absurd hrow List.not_mem_nil
  exact (run_invariant hstep ⟨current_empty rt, hempty⟩ history).2

/-- What the rows of a stored case say of its authority. -/
structure Controlled (s : Store R) (row : CaseRow) : Prop where
  /-- One record, under which no irreversible action may run. -/
  authority : ∃ authority,
    rowsOf s.authorityRecords AuthorityRecord.caseId row.caseId = [authority] ∧
    (authority.decision = .deny ↔ row.status = "COMPLETED") ∧
    ∀ action ∈ irreversibleActions,
      enforceAction authority action = .error ⟨action, authority.decision⟩
  refund : ∀ cl ∈ rowsOf s.claims Claim.caseId row.caseId,
    cl.claimType = .autoRefundPermitted → cl.status = .false
  reviewed : (∃ r ∈ s.reviewTasks.rows, r.caseId = row.caseId) ↔ row.status = "NEEDS_REVIEW"

/-- The run that a stored case shows. -/
theorem shown_of_row (hs : Current rt s) {row : CaseRow} (hrow : row ∈ s.cases.rows) :
    ∃ (j : Job) (a : CaseArtifacts R) (version : Nat),
      runCasePipeline rt j.case j.sources j.budget = .ok a ∧ row = caseRow a version ∧
        Shows s a version := by
  obtain ⟨j, a, version, hrun, hcase, hshows⟩ :=
    hs.shown row.caseId (List.mem_map.mpr ⟨row, hrow, rfl⟩)
  have hget : s.getCase row.caseId = some row := Table.get_key hrow
  rw [← hcase, hshows.case] at hget
  exact ⟨j, a, version, hrun, (Option.some.inj hget).symm, hshows⟩

theorem controlled_of_current (hs : Current rt s) (hreviewed : Reviewed s) {row : CaseRow}
    (hrow : row ∈ s.cases.rows) : Controlled s row := by
  obtain ⟨j, a, version, hrun, rfl, hshows⟩ := shown_of_row hs hrow
  have hrestrained := restrained_of_run hrun
  have hstatus : (caseRow a version).status = "COMPLETED" ↔ a.terminationStatus = .completed := by
    show a.terminationStatus.value = _ ↔ _
    cases a.terminationStatus <;> decide
  refine ⟨⟨a.authority, hshows.authority, ?_, ?_⟩, ?_, hreviewed _ hrow⟩
  · rw [hstatus]
    exact hrestrained.denied
  · exact enforceAction_blocked hrestrained.decision
  · show ∀ cl ∈ rowsOf _ _ a.case.caseId, _
    rw [hshows.claims]
    exact hrestrained.refund

/-- **NO REFUND IS EVER AUTHORISED**: in every store that runs of any cases, on
    any sources and budgets, and any decisions lead to, every stored case has
    one authority record, which refuses every irreversible action, its refund
    claim is FALSE, and a review is stored exactly while the case waits for
    one. -/
theorem stored_controlled (rt : Runtime R) (history : List Write) :
    ∀ row ∈ (run (write rt) Store.empty history).cases.rows,
      Controlled (run (write rt) Store.empty history) row :=
  fun _ hrow => controlled_of_current (current_run rt history) (reviewed_run rt history) hrow

/-- The stored hero case. -/
theorem hero_controlled : ∃ row ∈ (run (write (default : Runtime Float)) Store.empty
      [.run heroJob]).cases.rows,
    Controlled (run (write (default : Runtime Float)) Store.empty [.run heroJob]) row := by
  obtain ⟨row, hrow⟩ := hero_stored
  exact ⟨row, hrow, stored_controlled default [.run heroJob] row hrow⟩

/-! ## What the rows cite -/

/-- What a stage of the trace may name: the investigation names sources, the
    later stages name evidence. -/
def nameable (evidence : List (Evidence R)) (stage : String) : List String :=
  if stage = "INVESTIGATE" then evidence.map Evidence.sourceId
  else evidence.map Evidence.evidenceId

/-- The ids that the JSON columns of a case name are those of its rows. -/
structure CitesOwn (evidence : List (Evidence R)) (claims : List Claim) (trace : List TraceEvent)
    (reports : List (GuardrailReport R)) : Prop where
  cited : ∀ cl ∈ claims, citedIds cl ⊆ evidence.map Evidence.evidenceId
  /-- The summary is shown as it was generated, and cites rows only. -/
  summary : ∀ report ∈ reports, report.ungroundedCount = 0 ∧
    ∀ sentence ∈ report.summarySentences, sentence.grounded = true ∧
      sentence.evidenceIds ⊆ evidence.map Evidence.evidenceId ∧
      sentence.claimIds ⊆ claims.map Claim.claimId
  scores : ∀ report ∈ reports, ∀ id,
    report.relevanceScores.has id = true ↔ id ∈ evidence.map Evidence.evidenceId
  named : ∀ e ∈ trace, e.evidenceIds ⊆ nameable evidence e.stage
  /-- Every tool that is named is on the allow-list. -/
  tools : ∀ e ∈ trace, ∀ tool, e.toolName = some tool → (toolRegistry.lookup tool).isSome = true

/-- Every event is that of an entry. -/
theorem entry_of_event {t : TraceRecorder} {es : List Entry} {e : TraceEvent}
    (h : e ∈ (t.recordAll rt es).events) : e ∈ t.events ∨ ∃ x ∈ es,
      e.stage = x.stage ∧ e.toolName = x.toolName ∧ e.evidenceIds = x.evidenceIds := by
  induction es generalizing t with
  | nil => exact Or.inl h
  | cons x es ih =>
      rcases ih h with hrecorded | ⟨y, hy, heq⟩
      · rcases List.mem_append.mp hrecorded with hold | hnew
        · exact Or.inl hold
        · obtain rfl := List.mem_singleton.mp hnew
          exact Or.inr ⟨x, List.mem_cons_self, rfl, rfl, rfl⟩
      · exact Or.inr ⟨y, List.mem_cons_of_mem _ hy, heq⟩

/-- What an entry of a run names. -/
structure Names (evidence : List (Evidence R)) (x : Entry) : Prop where
  ids : x.evidenceIds ⊆ nameable evidence x.stage
  tool : ∀ tool, x.toolName = some tool → (toolRegistry.lookup tool).isSome = true

theorem names_of_ids {evidence : List (Evidence R)} {x : Entry} (htool : x.toolName = none)
    (hids : x.evidenceIds ⊆ nameable evidence x.stage) : Names evidence x :=
  ⟨hids, fun _ heq => nomatch htool.symm.trans heq⟩

/-- An entry that names nothing. -/
theorem names_nothing {evidence : List (Evidence R)} {x : Entry} (htool : x.toolName = none)
    (hids : x.evidenceIds = []) : Names evidence x :=
  names_of_ids htool (hids ▸ List.nil_subset _)

/-- The sources of a run's evidence are its candidates. -/
theorem sources_of_evidence (rt : Runtime R) (c : Case) (sources : List Source) :
    (runEvidence rt c sources).map Evidence.sourceId =
      (candidatesOf c sources).map Source.sourceId := by
  rw [runEvidence, List.map_map]
  exact List.map_congr_left fun s _ => settled_sourceId c _ s

/-- The investigation names candidates, and its tool. -/
theorem names_retrieval (rt : Runtime R) (c : Case) (sources : List Source) :
    ∀ x ∈ retrievalEntries c sources ++ criticEntry c (candidatesOf c sources) :: handoffEntries,
      Names (runEvidence rt c sources) x := by
  have htool : ∀ tool, some "fixture_lexical_search" = some tool →
      (toolRegistry.lookup tool).isSome = true := by
    rintro tool ⟨⟩
    decide
  have hcandidates : nameable (runEvidence rt c sources) "INVESTIGATE" =
      (candidatesOf c sources).map Source.sourceId :=
    (if_pos rfl).trans (sources_of_evidence rt c sources)
  intro x hx
  simp only [retrievalEntries, handoffEntries, List.cons_append, List.nil_append, List.mem_cons,
    List.not_mem_nil, or_false] at hx
  rcases hx with rfl | rfl | rfl | rfl | rfl
  · exact ⟨List.nil_subset _, htool⟩
  · exact ⟨hcandidates.symm ▸ List.Subset.refl _, htool⟩
  · refine names_of_ids rfl ?_
    show (criticEntry c (candidatesOf c sources)).evidenceIds ⊆ nameable _ "INVESTIGATE"
    rw [hcandidates]
    exact List.map_subset _ (List.filter_subset_self _)
  · exact names_nothing rfl rfl
  · exact names_nothing rfl rfl

theorem names_validated (rt : Runtime R) (c : Case) (sources : List Source) :
    ∀ x ∈ validatedEntries rt c (candidatesOf c sources), Names (runEvidence rt c sources) x := by
  intro x hx
  obtain ⟨s, hs, rfl⟩ := List.mem_map.mp hx
  refine names_of_ids rfl fun id hid => ?_
  obtain rfl := List.mem_singleton.mp hid
  exact List.mem_map.mpr ⟨_, List.mem_map.mpr ⟨s, hs, rfl⟩, settled_evidenceId c _ s⟩

theorem names_resolved (rt : Runtime R) (c : Case) (sources : List Source) :
    ∀ x ∈ (resolvedClaims rt c (runEvidence rt c sources)).map resolvedEntry,
      Names (runEvidence rt c sources) x := by
  intro x hx
  obtain ⟨cl, hcl, rfl⟩ := List.mem_map.mp hx
  refine names_of_ids rfl fun id hid => ?_
  obtain ⟨e, he, rfl⟩ := citable_of_cited hcl hid
  exact List.mem_map.mpr ⟨e, citable_subset _ he, rfl⟩

theorem names_closing {evidence : List (Evidence R)} (reviewed : Bool) :
    ∀ x ∈ closingEntries reviewed, Names evidence x := by
  intro x hx
  cases reviewed with
  | true =>
      obtain rfl := List.mem_singleton.mp hx
      exact names_nothing rfl rfl
  | false =>
      rcases List.mem_pair.mp hx with rfl | rfl
      · exact names_nothing rfl rfl
      · exact names_nothing rfl rfl

/-- **EVERY ENTRY OF A RUN** names rows of the run and tools of the allow-list. -/
theorem names_of_entry {scanned : List Entry} {review : Entry}
    (hscanned : ∀ e ∈ scanned, e.stage = "GUARDRAILS" ∧ e.toolName = none ∧
      e.evidenceIds ⊆ (runEvidence rt c sources).map Evidence.evidenceId)
    (hreview : review.stage = "AUTHORISE" ∧ review.toolName = none ∧ review.evidenceIds = []) :
    ∀ x ∈ runEntries rt c sources scanned review, Names (runEvidence rt c sources) x := by
  have hguarded : ∀ x ∈ scanned, Names (runEvidence rt c sources) x := by
    intro x hx
    obtain ⟨hstage, htool, hids⟩ := hscanned x hx
    refine names_of_ids htool ?_
    rw [hstage]
    exact hids
  have hone : ∀ {x : Entry}, x.toolName = none → x.evidenceIds = [] →
      ∀ y ∈ [x], Names (runEvidence rt c sources) y :=
    fun htool hids y hy => List.mem_singleton.mp hy ▸ names_nothing htool hids
  intro x hx
  simp only [runEntries, List.mem_append] at hx
  rcases hx with (((((((((((hx | hx) | hx) | hx) | hx) | hx) | hx) | hx) | hx) | hx) | hx) | hx) | hx
  · exact hone rfl rfl x hx
  · exact names_retrieval rt c sources x (List.mem_append.mpr hx)
  · exact names_validated rt c sources x hx
  · exact hone rfl rfl x hx
  · exact names_resolved rt c sources x hx
  · exact hone rfl rfl x hx
  · exact hguarded x hx
  · exact hone rfl rfl x hx
  · exact hone rfl rfl x hx
  · exact hone hreview.2.1 hreview.2.2 x hx
  · exact hone rfl rfl x hx
  · exact names_closing _ x hx
  · exact hone rfl rfl x hx

/-- What a trace names whose entries all name rows. -/
theorem named_of_entries {evidence : List (Evidence R)} {entries : List Entry}
    (h : ∀ x ∈ entries, Names evidence x) {e : TraceEvent}
    (he : e ∈ ((openedTrace rt c.caseId).recordAll rt entries).events) :
    e.evidenceIds ⊆ nameable evidence e.stage ∧
      ∀ tool, e.toolName = some tool → (toolRegistry.lookup tool).isSome = true := by
  rcases entry_of_event he with hopened | ⟨x, hx, hstage, htool, hids⟩
  · obtain rfl := List.mem_singleton.mp hopened
    exact ⟨List.nil_subset _, nofun⟩
  · rw [hstage, htool, hids]
    exact ⟨(h x hx).ids, (h x hx).tool⟩

/-- **A RUN CITES ITS OWN ROWS**, however it ended. -/
theorem cites_of_run (h : runCasePipeline rt c sources budget = .ok a) :
    CitesOwn a.evidence a.claims a.traceEvents a.guardrailReport.toList := by
  cases ended_of_run h with
  | blocked e runs =>
      have hentries : ∀ x ∈ ([transitionEntry .created .investigating,
          { stage := "INVESTIGATE", eventType := "BUDGET_EXCEEDED"
            toolName := some "fixture_lexical_search" }] : List Entry),
          Names ([] : List (Evidence R)) x := by
        intro x hx
        rcases List.mem_pair.mp hx with rfl | rfl
        · exact names_nothing rfl rfl
        · refine ⟨List.nil_subset _, ?_⟩
          rintro tool ⟨⟩
          decide
      exact ⟨nofun, nofun, nofun, fun e he => (named_of_entries hentries he).1,
        fun e he => (named_of_entries hentries he).2⟩
  | completed scanned review hscanned hreview =>
      have hentries := names_of_entry hscanned hreview
      have hgrounded := summary_grounded rt c (runEvidence rt c sources)
      dsimp only [completedArtifacts, Option.toList_some]
      refine ⟨?_, ?_, ?_, fun e he => (named_of_entries hentries he).1,
        fun e he => (named_of_entries hentries he).2⟩
      · intro cl hcl id hid
        obtain ⟨e, he, rfl⟩ := citable_of_cited hcl hid
        exact List.mem_map.mpr ⟨e, citable_subset _ he, rfl⟩
      · intro report hreport
        obtain rfl := List.mem_singleton.mp hreport
        refine ⟨congrArg Prod.snd hgrounded, fun sentence hsentence => ?_⟩
        have hsummary : (runReport rt c sources).summarySentences =
            generateCaseSummary (resolvedClaims rt c (runEvidence rt c sources)) :=
          congrArg Prod.fst hgrounded
        rw [hsummary] at hsentence
        obtain ⟨cl, hcl, rfl⟩ := List.mem_map.mp hsentence
        refine ⟨rfl, fun id hid => ?_, fun id hid => ?_⟩
        · obtain ⟨e, he, rfl⟩ := citable_of_cited hcl (List.mem_append_left _ hid)
          exact List.mem_map.mpr ⟨e, citable_subset _ he, rfl⟩
        · obtain rfl := List.mem_singleton.mp hid
          exact List.mem_map.mpr ⟨cl, hcl, rfl⟩
      · intro report hreport id
        obtain rfl := List.mem_singleton.mp hreport
        show (Dict.ofPairs ((runEvidence rt c sources).map fun e =>
          (e.evidenceId, e.relevanceScore))).has id = true ↔ _
        rw [Dict.has_ofPairs]
        constructor
        · rintro ⟨score, hscore⟩
          obtain ⟨e, he, heq⟩ := List.mem_map.mp hscore
          exact List.mem_map.mpr ⟨e, he, congrArg Prod.fst heq⟩
        · intro hid
          obtain ⟨e, he, rfl⟩ := List.mem_map.mp hid
          exact ⟨_, List.mem_map.mpr ⟨e, he, rfl⟩⟩

/-- **STORED CITATIONS RESOLVE**: in every store that runs and decisions lead
    to, what the claims, the guardrail report and the trace of a stored case
    name in their JSON columns, which no constraint guards, are stored rows of
    the same case. -/
theorem stored_citations_resolve (rt : Runtime R) (history : List Write) :
    ∀ row ∈ (run (write rt) Store.empty history).cases.rows,
      let s := run (write rt) Store.empty history
      CitesOwn (rowsOf s.evidence Evidence.caseId row.caseId)
        (rowsOf s.claims Claim.caseId row.caseId)
        (rowsOf s.traceEvents TraceEvent.caseId row.caseId)
        (rowsOf s.guardrailReports GuardrailReport.caseId row.caseId) := by
  intro row hrow
  obtain ⟨j, a, version, hrun, rfl, hshows⟩ := shown_of_row (current_run rt history) hrow
  show CitesOwn (rowsOf _ _ a.case.caseId) (rowsOf _ _ a.case.caseId) (rowsOf _ _ a.case.caseId)
    (rowsOf _ _ a.case.caseId)
  rw [hshows.evidence, hshows.claims, hshows.trace, hshows.report]
  exact cites_of_run hrun

/-- The citations of the stored hero case. -/
theorem hero_citations : ∃ row ∈ (run (write (default : Runtime Float)) Store.empty
      [.run heroJob]).cases.rows,
    let s := run (write (default : Runtime Float)) Store.empty [.run heroJob]
    CitesOwn (rowsOf s.evidence Evidence.caseId row.caseId)
      (rowsOf s.claims Claim.caseId row.caseId)
      (rowsOf s.traceEvents TraceEvent.caseId row.caseId)
      (rowsOf s.guardrailReports GuardrailReport.caseId row.caseId) := by
  obtain ⟨row, hrow⟩ := hero_stored
  exact ⟨row, hrow, stored_citations_resolve default [.run heroJob] row hrow⟩

end ControlChain
