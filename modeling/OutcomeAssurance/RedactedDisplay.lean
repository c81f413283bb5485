import OutcomeAssurance.CaseIsolation

/-! # Where redacted text is shown

    The guardrails scan each excerpt of a run and report personal data as
    redacted before display.  What is stored, and what
    `GET /api/cases/{id}/evidence` returns, is the excerpt as it came in. -/

namespace RedactedDisplay

open CaseModel PyRuntime Backtracking Guardrails Investigation Validation Pipeline
open KeyedTable CaseStore CaseKeys CaseOwnership CaseIsolation

variable {R : Type} {rt : Runtime R} {s s' : Store R} {a : CaseArtifacts R}

/-! ## The endpoint -/

/-- One item of the response. -/
structure ShownEvidence (R : Type) where
  evidenceId : String
  sourceId : String
  locator : String
  excerpt : String
  excerptKind : String
  authorityStatus : Validity
  entityBindingStatus : Validity
  supportStatus : SupportStatus
  validationReasons : List ReasonCode
  relevanceScore : R

def shownOf (e : Evidence R) : ShownEvidence R where
  evidenceId := e.evidenceId
  sourceId := e.sourceId
  locator := e.locator
  excerpt := e.excerpt
  excerptKind := e.excerptKind
  authorityStatus := e.authorityStatus
  entityBindingStatus := e.entityBindingStatus
  supportStatus := e.supportStatus
  validationReasons := e.validationReasons
  relevanceScore := e.relevanceScore

/-- The items, in the order of `ix_evidence_case_source`. -/
def shownEvidence (evidence : List (Evidence R)) : List (ShownEvidence R) :=
  (evidence.mergeSort fun a b => a.sourceId ≤ b.sourceId).map shownOf

/-- `get_case_evidence`; `none` is the answer 404. -/
def getCaseEvidence (s : Store R) (caseId : String) : Option (List (ShownEvidence R)) :=
  (s.getCase caseId).map fun _ =>
    shownEvidence (s.evidence.rows.filter fun e => e.caseId = caseId)

/-- Where a finding of the run says that personal data of an evidence item is
    redacted, what the endpoint shows of the item has none of it. -/
def RedactedWhereShown (rt : Runtime R) (a : CaseArtifacts R) (s' : Store R) : Prop :=
  ∀ report, a.guardrailReport = some report → ∀ f ∈ report.inputFindings, ∀ e ∈ a.evidence,
    f.target = e.evidenceId → f.detail = "Redacted before display" →
    ∀ p ∈ piiPatterns rt, f.category = "PII_" ++ p.1 →
    ∀ shown, getCaseEvidence s' a.case.caseId = some shown → ∀ v ∈ shown,
      v.evidenceId = f.target → search rt.isWord p.2 v.excerpt = false

/-! ## The scan -/

/-- The redaction by one pattern. -/
def redactStep (rt : Runtime R) (acc : String × List String) (p : String × Pattern) :
    String × List String :=
  if search rt.isWord p.2 acc.1 then
    (sub rt.isWord p.2 ("[REDACTED_" ++ p.1 ++ "]") acc.1, acc.2 ++ [p.1])
  else acc

theorem redactPii_eq (text : String) :
    redactPii rt text = (piiPatterns rt).foldl (redactStep rt) (text, []) := rfl

theorem found_mono (patterns : List (String × Pattern)) (acc : String × List String) :
    acc.2 ⊆ (patterns.foldl (redactStep rt) acc).2 := by
  induction patterns generalizing acc with
  | nil => exact List.Subset.refl _
  | cons p patterns ih =>
      refine List.Subset.trans ?_ (ih _)
      rw [redactStep]
      split
      · exact List.subset_append_left _ _
      · exact List.Subset.refl _

theorem found_clean {patterns : List (String × Pattern)} {text : String}
    (h : ∀ p ∈ patterns, search rt.isWord p.2 text = false) :
    patterns.foldl (redactStep rt) (text, []) = (text, []) := by
  induction patterns with
  | nil => rfl
  | cons p patterns ih =>
      rw [List.foldl_cons, redactStep, h p List.mem_cons_self, if_neg Bool.false_ne_true]
      exact ih fun q hq => h q (List.mem_cons_of_mem _ hq)

/-- The first category found is found in the text as it came in. -/
theorem found_first {patterns : List (String × Pattern)} {text : String}
    (h : ∃ p ∈ patterns, search rt.isWord p.2 text = true) :
    ∃ p ∈ patterns, p.1 ∈ (patterns.foldl (redactStep rt) (text, [])).2
      ∧ search rt.isWord p.2 text = true := by
  induction patterns with
  | nil =>
      obtain ⟨p, hp, -⟩ := h
      exact absurd hp List.not_mem_nil
  | cons p patterns ih =>
      rw [List.foldl_cons, redactStep]
      by_cases hp : search rt.isWord p.2 text = true
      · refine ⟨p, List.mem_cons_self, ?_, hp⟩
        rw [if_pos hp]
        exact found_mono patterns _ (List.mem_append_right _ List.mem_cons_self)
      · obtain ⟨q, hq, hmatch⟩ := h
        have hq : q ∈ patterns := (List.mem_cons.mp hq).resolve_left fun heq => hp (heq ▸ hmatch)
        obtain ⟨r, hr, hfound, hsearch⟩ := ih ⟨q, hq, hmatch⟩
        rw [if_neg hp]
        exact ⟨r, List.mem_cons_of_mem _ hr, hfound, hsearch⟩

/-! ## What is shown of a persisted run -/

/-- Every excerpt of the run is shown as it is. -/
theorem shown_of_persisted (hshaped : Shaped a) (h : persistCaseRun rt s a = some s')
    {e : Evidence R} (he : e ∈ a.evidence) :
    ∃ shown, getCaseEvidence s' a.case.caseId = some shown ∧ shownOf e ∈ shown := by
  have hpersisted := (persisted_iff hshaped).mp h
  obtain ⟨row, hrow⟩ := Option.ne_none_iff_exists'.mp fun hnone =>
    getCase_eq_none.mp hnone (mem_caseIds_persisted hpersisted)
  refine ⟨_, by rw [getCaseEvidence, hrow, Option.map_some], ?_⟩
  refine List.mem_map.mpr ⟨e, List.mem_mergeSort.mpr (List.mem_filter.mpr ⟨?_, ?_⟩), rfl⟩
  · rw [Table.rows_of_insert hpersisted.evidence]
    exact List.mem_append_right _ he
  · exact decide_eq_true (hshaped.evidence e he).1

theorem mem_runEvidence {c : Case} {sources : List Source} {e : Evidence R} :
    e ∈ runEvidence rt c sources ↔
      ∃ x ∈ candidatesOf c sources, settledEvidence rt c (candidatesOf c sources) x = e :=
  List.mem_map

theorem injection_detail (target category : String) :
    (injectionFinding target category).detail ≠ "Redacted before display" := by
  simp [injectionFinding]

/-- A finding of a complete run about one of its items comes from some item's
    excerpt. -/
theorem finding_of_evidence {c : Case} {sources : List Source} {report : GuardrailReport R}
    {entries : List TraceChain.Entry} (hrecorded : Recorded rt c sources report entries)
    {f : GuardrailFinding} (hf : f ∈ report.inputFindings)
    (hdetail : f.detail = "Redacted before display") {e : Evidence R}
    (he : e ∈ runEvidence rt c sources) (htarget : f.target = e.evidenceId) :
    ∃ x ∈ candidatesOf c sources, (redactPii rt x.text).2 ≠ [] := by
  rw [hrecorded.findings_eq, List.mem_append] at hf
  obtain ⟨y, -, rfl⟩ := mem_runEvidence.mp he
  rw [settled_evidenceId] at htarget
  rcases hf with hf | hf
  · -- the target of a finding about the event is no evidence id
    obtain ⟨⟨name, value⟩, -, hf⟩ := List.mem_flatMap.mp hf
    cases value with
    | text value =>
        obtain ⟨category, -, rfl⟩ := List.mem_map.mp hf
        have hchars := congrArg String.toList htarget
        rw [piiFinding, String.toList_append, String.toList_append] at hchars
        exact absurd (List.cons.inj hchars).1 (by decide)
    | other b => exact absurd hf List.not_mem_nil
  · obtain ⟨e', he', hf⟩ := List.mem_flatMap.mp hf
    obtain ⟨x, hx, rfl⟩ := mem_runEvidence.mp he'
    refine ⟨x, hx, fun hnone => ?_⟩
    rw [evidenceFindings, settled_excerpt, hnone, List.map_nil, List.append_nil] at hf
    obtain ⟨category, -, rfl⟩ := List.mem_map.mp hf
    exact absurd hdetail (injection_detail _ _)

/-- An excerpt with personal data is shown with it, next to a finding that says
    otherwise. -/
theorem not_redacted_of_match {c : Case} {sources : List Source} {budget : RunBudget}
    (hspent : ¬ budget.Spent) (hrun : runCasePipeline rt c sources budget = .ok a)
    (hpersist : persistCaseRun rt s a = some s') {x : Source} (hx : x ∈ candidatesOf c sources)
    (hmatch : ∃ p ∈ piiPatterns rt, search rt.isWord p.2 x.text = true) :
    ¬ RedactedWhereShown rt a s' := by
  intro hredacted
  obtain ⟨hshaped, -⟩ := shaped_of_run hrun
  obtain ⟨report, entries, hcomplete, hrecorded⟩ := run_recorded rt c sources hspent
  rw [hcomplete] at hrun
  obtain rfl := Except.ok.inj hrun
  obtain ⟨p, hp, hfound, hsearch⟩ := found_first hmatch
  rw [← redactPii_eq] at hfound
  let e := settledEvidence rt c (candidatesOf c sources) x
  have he : e ∈ runEvidence rt c sources := mem_runEvidence.mpr ⟨x, hx, rfl⟩
  have hexcerpt : e.excerpt = x.text := settled_excerpt _ _ _
  have hfinding : piiFinding e.evidenceId p.1 ∈ report.inputFindings := by
    rw [hrecorded.findings_eq]
    refine List.mem_append_right _ (List.mem_flatMap.mpr ⟨e, he, List.mem_append_right _ ?_⟩)
    rw [hexcerpt]
    exact List.mem_map_of_mem hfound
  obtain ⟨shown, hshown, hmem⟩ := shown_of_persisted hshaped hpersist he
  have hclean := hredacted report rfl _ hfinding e he rfl rfl p hp rfl shown hshown _ hmem rfl
  rw [show (shownOf e).excerpt = x.text from hexcerpt, hsearch] at hclean
  cases hclean

/-- **WHEN WHAT IS REPORTED AS REDACTED IS**: only where there is nothing to
    redact, because no tool call is left or no excerpt has personal data. -/
theorem redacted_iff (rt : Runtime R) (c : Case) (sources : List Source) (budget : RunBudget)
    (a : CaseArtifacts R) (hrun : runCasePipeline rt c sources budget = .ok a) (s s' : Store R)
    (hpersist : persistCaseRun rt s a = some s') :
    RedactedWhereShown rt a s' ↔ budget.Spent ∨ ∀ x ∈ candidatesOf c sources,
      ∀ p ∈ piiPatterns rt, search rt.isWord p.2 x.text = false := by
  constructor
  · intro hredacted
    by_contra hnot
    obtain ⟨hspent, hmatch⟩ := not_or.mp hnot
    simp only [not_forall, Bool.not_eq_false] at hmatch
    obtain ⟨x, hx, p, hp, hsearch⟩ := hmatch
    exact not_redacted_of_match hspent hrun hpersist hx ⟨p, hp, hsearch⟩ hredacted
  · rintro hclean report hreport f hf e he htarget hdetail
    by_cases hspent : budget.Spent
    · rw [run_of_spent hspent] at hrun
      obtain rfl := Except.ok.inj hrun
      cases hreport
    · have hclean := hclean.resolve_left hspent
      obtain ⟨report', entries, hcomplete, hrecorded⟩ := run_recorded rt c sources hspent
      rw [hcomplete] at hrun
      obtain rfl := Except.ok.inj hrun
      obtain rfl : report' = report := Option.some.inj hreport
      obtain ⟨x, hx, hfound⟩ := finding_of_evidence hrecorded hf hdetail he htarget
      rw [redactPii_eq, found_clean (hclean x hx)] at hfound
      exact absurd rfl hfound

theorem persisted_of_job (rt : Runtime R) (j : Job)
    (hdistinct : (j.sources.map Source.sourceId).Nodup) :
    ∃ a s', runCasePipeline rt j.case j.sources j.budget = .ok a
      ∧ persistCaseRun rt Store.empty a = some s' := by
  obtain ⟨s', hpersist⟩ := (persist_fresh_iff rt owned_empty List.not_mem_nil hdistinct).mpr
    (noneStored_empty j)
  obtain ⟨a, hrun, hsame⟩ := persist_eq rt j
  exact ⟨a, s', hrun, hsame _ ▸ hpersist⟩

/-- The shipped policy has no personal data, and none is shown. -/
theorem policy_shown_clean :
    ∃ a s', runCasePipeline (default : Runtime Float) Fixtures.hero [Fixtures.kogan] {} = .ok a ∧
      persistCaseRun default Store.empty a = some s' ∧ RedactedWhereShown default a s' := by
  obtain ⟨a, s', hrun, hpersist⟩ := persisted_of_job (default : Runtime Float) policyJob (by decide)
  refine ⟨a, s', hrun, hpersist, (redacted_iff default Fixtures.hero [Fixtures.kogan] {} a hrun
    Store.empty s' hpersist).mpr (Or.inr ?_)⟩
  decide +kernel

/-! ## A policy with an address -/

/-- The retailer's policy, naming whom to write to. -/
def contactPolicy : Source :=
  { Fixtures.kogan with excerpt := some "Write to returns@shop.example for a replacement." }

theorem contact_matches (rt : Runtime R) :
    ∃ p ∈ piiPatterns rt, search rt.isWord p.2 contactPolicy.text = true :=
  ⟨_, List.mem_cons_self, rfl⟩

/-- The address is reported as redacted, and shown. -/
theorem contact_shown :
    ∃ a s', runCasePipeline (default : Runtime Float) Fixtures.hero [contactPolicy] {} = .ok a ∧
      persistCaseRun default Store.empty a = some s' ∧ ¬ RedactedWhereShown default a s' := by
  obtain ⟨a, s', hrun, hpersist⟩ := persisted_of_job (default : Runtime Float)
    ⟨Fixtures.hero, [contactPolicy], {}⟩ (by decide)
  exact ⟨a, s', hrun, hpersist, not_redacted_of_match (by decide) hrun hpersist
    (x := contactPolicy) (by decide) (contact_matches default)⟩

end RedactedDisplay
