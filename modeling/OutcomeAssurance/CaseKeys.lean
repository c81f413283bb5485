import OutcomeAssurance.CaseStore

/-! # Key schemes

    The ids under which the rows of a case are stored.  Each scheme but the
    one of evidence mentions the case so that it can be read back: rows of
    different cases never clash. -/

namespace CaseKeys

open KeyedTable CaseModel PyRuntime PyText TraceChain Investigation Pipeline CaseStore
open ReviewModel (ReviewTask)

/-! ## Rows that name their case -/

/-- A row type with an id scheme that keeps the rows of different cases apart. -/
class CaseRows (ρ : Type) [Constrained ρ] where
  /-- The row is filed under this case. -/
  Owns : String → ρ → Prop
  apart : ∀ {c c' : String} {r r' : ρ}, Owns c r → Owns c' r' → c ≠ c' → ¬ Clash r r'

export CaseRows (Owns apart)

theorem not_mem_roleValue (role : AgentRole) : '-' ∉ role.value.toList := by
  cases role <;> decide

theorem not_mem_typeName (t : ClaimType) : '-' ∉ t.name.toList := by
  cases t <;> decide

theorem roleValue_injective {role role' : AgentRole} (h : role.value = role'.value) :
    role = role' := by
  cases role <;> cases role' <;> first | rfl | exact absurd h (by decide)

theorem typeName_injective {t t' : ClaimType} (h : t.name = t'.name) : t = t' := by
  cases t <;> cases t' <;> first | rfl | exact absurd h (by decide)

/-- Case and part are read back from an id made of both. -/
theorem composed_inj {pre c c' part part' : String} (hp : '-' ∉ part.toList)
    (hp' : '-' ∉ part'.toList) (h : pre ++ c ++ "-" ++ part = pre ++ c' ++ "-" ++ part') :
    c = c' ∧ part = part' := by
  obtain ⟨hc, hpart⟩ := append_dash_inj hp hp' h
  exact ⟨(String.append_right_inj _).mp hc, hpart⟩

theorem runId_inj {c c' : String} {role role' : AgentRole} (h : runId c role = runId c' role') :
    c = c' ∧ role = role' := by
  obtain ⟨hc, hrole⟩ := composed_inj (not_mem_roleValue role) (not_mem_roleValue role') h
  exact ⟨hc, roleValue_injective hrole⟩

instance : CaseRows CaseRow where
  Owns c r := r.caseId = c
  apart := by
    intro c c' r r' h h' hne hclash
    exact hne (h.symm.trans (hclash.trans h'))

instance : CaseRows Claim where
  Owns c r := r.caseId = c ∧ r.claimId = "CLAIM-" ++ c ++ "-" ++ r.claimType.name
  apart := by
    rintro c c' r r' ⟨hc, hid⟩ ⟨hc', hid'⟩ hne (hclash | hclash)
    -- the key and the unique pair both name the case
    · have hclash : r.claimId = r'.claimId := hclash
      rw [hid, hid'] at hclash
      exact hne (composed_inj (not_mem_typeName _) (not_mem_typeName _) hclash).1
    · exact hne (hc.symm.trans ((congrArg Prod.fst hclash).trans hc'))

instance : CaseRows AuthorityRecord where
  Owns c r := r.caseId = c ∧ r.authorityId = "AUTH-" ++ c
  apart := by
    rintro c c' r r' ⟨-, hid⟩ ⟨-, hid'⟩ hne hclash
    exact hne ((String.append_right_inj _).mp (hid.symm.trans (hclash.trans hid')))

instance : CaseRows ReviewTask where
  Owns c r := r.caseId = c ∧ r.reviewId = "REVIEW-" ++ c
  apart := by
    rintro c c' r r' ⟨-, hid⟩ ⟨-, hid'⟩ hne hclash
    exact hne ((String.append_right_inj _).mp (hid.symm.trans (hclash.trans hid')))

instance : CaseRows Outcome where
  Owns c r := r.caseId = c ∧ r.outcomeId = "OUTCOME-" ++ c ++ "-1"
  apart := by
    rintro c c' r r' ⟨hc, hid⟩ ⟨hc', hid'⟩ hne (hclash | hclash)
    · have hclash : r.outcomeId = r'.outcomeId := hclash
      rw [hid, hid'] at hclash
      exact hne ((String.append_right_inj _).mp ((String.append_left_inj _).mp hclash))
    · exact hne (hc.symm.trans ((congrArg Prod.fst hclash).trans hc'))

instance : CaseRows TraceEvent where
  Owns c r := r.caseId = c ∧ r.traceId = "TRACE-" ++ c ++ "-" ++ zeroPad 3 r.sequence.toNat
  apart := by
    rintro c c' r r' ⟨hc, hid⟩ ⟨hc', hid'⟩ hne (hclash | hclash)
    · have hclash : r.traceId = r'.traceId := hclash
      rw [hid, hid'] at hclash
      exact hne (composed_inj (not_mem_zeroPad _ _) (not_mem_zeroPad _ _) hclash).1
    · exact hne (hc.symm.trans ((congrArg Prod.fst hclash).trans hc'))

instance : CaseRows AgentRun where
  Owns c r := r.caseId = c ∧ ∃ role, r.agentRunId = runId c role
  apart := by
    rintro c c' r r' ⟨-, role, hid⟩ ⟨-, role', hid'⟩ hne hclash
    exact hne (runId_inj (hid.symm.trans (hclash.trans hid'))).1

instance : CaseRows AgentStep where
  Owns c r := ∃ role, r.agentRunId = runId c role ∧ r.stepId = "STEP-" ++ runId c role ++ "-001"
  apart := by
    rintro c c' r r' ⟨role, hrun, hid⟩ ⟨role', hrun', hid'⟩ hne (hclash | hclash)
    · have hclash : r.stepId = r'.stepId := hclash
      rw [hid, hid'] at hclash
      exact hne (runId_inj ((String.append_right_inj _).mp
        ((String.append_left_inj _).mp hclash))).1
    · have hclash := congrArg Prod.fst hclash
      exact hne (runId_inj (hrun.symm.trans (hclash.trans hrun'))).1

instance : CaseRows AgentHandoff where
  Owns c r := r.parentRunId = runId c .supervisor ∧ ∃ role,
    r.handoffId = "HANDOFF-" ++ c ++ "-" ++ role.value ∧ r.childRunId = runId c role
  apart := by
    rintro c c' r r' ⟨-, role, hid, hchild⟩ ⟨-, role', hid', hchild'⟩ hne (hclash | hclash)
    · have hclash : r.handoffId = r'.handoffId := hclash
      rw [hid, hid'] at hclash
      exact hne (composed_inj (not_mem_roleValue _) (not_mem_roleValue _) hclash).1
    · have hclash : r.childRunId = r'.childRunId := hclash
      exact hne (runId_inj (hchild.symm.trans (hclash.trans hchild'))).1

variable {R : Type}

instance : CaseRows (GuardrailReport R) where
  Owns c r := r.caseId = c ∧ r.reportId = "GUARDRAIL-" ++ c
  apart := by
    rintro c c' r r' ⟨-, hid⟩ ⟨-, hid'⟩ hne hclash
    exact hne ((String.append_right_inj _).mp (hid.symm.trans (hclash.trans hid')))

/-! ## The rows of one run -/

/-- Rows of one case that can be inserted together. -/
def Block {ρ : Type} [Constrained ρ] [CaseRows ρ] (c : String) (rows : List ρ) : Prop :=
  (∀ r ∈ rows, Owns c r) ∧ rows.Pairwise fun a b => ¬ Clash a b

theorem block_nil {ρ : Type} [Constrained ρ] [CaseRows ρ] (c : String) :
    Block c ([] : List ρ) :=
  ⟨fun _ hr => absurd hr List.not_mem_nil, List.Pairwise.nil⟩

theorem block_singleton {ρ : Type} [Constrained ρ] [CaseRows ρ] {c : String} {r : ρ}
    (h : Owns c r) : Block c [r] :=
  ⟨fun _ hr => List.mem_singleton.mp hr ▸ h, List.pairwise_singleton _ _⟩

/-- Rows of one case that differ in what a clash would make them share. -/
theorem block_of_nodup {ρ β : Type} [Constrained ρ] [CaseRows ρ] {c : String} {rows : List ρ}
    {f : ρ → β} (hown : ∀ r ∈ rows, Owns c r)
    (hshare : ∀ r r' : ρ, Owns c r → Owns c r' → Clash r r' → f r = f r')
    (hnodup : (rows.map f).Nodup) : Block c rows := by
  refine ⟨hown, (List.pairwise_map.mp hnodup).imp_of_mem ?_⟩
  intro r r' hr hr' hne hclash
  exact hne (hshare r r' (hown r hr) (hown r' hr') hclash)

/-- A block goes into any table whose rows belong to other cases. -/
theorem insert_block {ρ : Type} [Constrained ρ] [CaseRows ρ] {t : Table ρ} {c : String}
    {rows : List ρ} (ht : ∀ r ∈ t.rows, ∃ c', c' ≠ c ∧ Owns c' r) (h : Block c rows) :
    ∃ t', t.insert rows = some t' := by
  refine Table.insert_isSome.mpr ⟨h.2, fun a ha b hb => ?_⟩
  obtain ⟨c', hne, hown⟩ := ht a ha
  exact apart hown (h.1 b hb) hne

/-! ## The rows of a pipeline run -/

theorem claims_block {c : String} {claims : List Claim} (hown : ∀ cl ∈ claims, Owns c cl)
    (hnodup : (claims.map Claim.claimType).Nodup) : Block c claims := by
  refine block_of_nodup hown ?_ hnodup
  rintro cl cl' ⟨-, hid⟩ ⟨-, hid'⟩ (hclash | hclash)
  · have hclash : cl.claimId = cl'.claimId := hclash
    rw [hid, hid'] at hclash
    exact typeName_injective
      (composed_inj (not_mem_typeName _) (not_mem_typeName _) hclash).2
  · exact congrArg Prod.snd hclash

theorem trace_block {t : TraceRecorder} (h : Numbered t) : Block t.caseId t.events := by
  refine block_of_nodup (f := fun e => e.sequence.toNat)
    (fun e he => ⟨h.caseIds e he, h.traceIds e he⟩) ?_ ?_
  · rintro e e' ⟨-, hid⟩ ⟨-, hid'⟩ (hclash | hclash)
    · have hclash : e.traceId = e'.traceId := hclash
      rw [hid, hid'] at hclash
      exact zeroPad_injective (composed_inj (not_mem_zeroPad _ _) (not_mem_zeroPad _ _) hclash).2
    · exact congrArg (fun p => p.2.toNat) hclash
  -- the recorder numbers its events from 1
  · have hnumbers : t.events.map (fun e => e.sequence.toNat) =
        (List.range t.events.length).map (· + 1) := by
      have hsequences := congrArg (List.map Int.toNat) h.sequences
      rwa [List.map_map, List.map_map] at hsequences
    rw [hnumbers]
    exact List.Nodup.map (fun m n hmn => Nat.succ_injective hmn) List.nodup_range

theorem runIds_nodup (c : String) (roles : List AgentRole) (h : roles.Nodup) :
    (roles.map (runId c)).Nodup :=
  h.map fun _ _ heq => (runId_inj heq).2

theorem runs_block {c : String} {runs : List AgentRun} (roles : List AgentRole)
    (hcase : ∀ r ∈ runs, r.caseId = c) (hids : runs.map AgentRun.agentRunId = roles.map (runId c))
    (hroles : roles.Nodup) : Block c runs := by
  refine block_of_nodup (f := AgentRun.agentRunId) (fun r hr => ⟨hcase r hr, ?_⟩)
    (fun r r' _ _ hclash => hclash) ?_
  · have hmem : r.agentRunId ∈ roles.map (runId c) := hids ▸ List.mem_map.mpr ⟨r, hr, rfl⟩
    obtain ⟨role, -, hrole⟩ := List.mem_map.mp hmem
    exact ⟨role, hrole.symm⟩
  · rw [hids]
    exact runIds_nodup c roles hroles

variable {rt : Runtime R} {c : Case} {sources : List Source} {budget : RunBudget}

theorem found_runs_block (rt : Runtime R) (c : Case) (sources : List Source) (budget : RunBudget) :
    Block c.caseId (foundResult rt c sources budget).agentRuns := by
  refine runs_block [.supervisor, .retrieval, .critic] ?_ rfl (by decide)
  intro r hr
  simp only [foundResult, investigationResult, List.mem_cons, List.not_mem_nil, or_false] at hr
  rcases hr with rfl | rfl | rfl <;> rfl

theorem blocked_runs_block (left : RunBudget) (e : BudgetExceeded) :
    Block c.caseId (blockedRuns rt c left e) := by
  refine runs_block [.supervisor, .retrieval] ?_ rfl (by decide)
  intro r hr
  simp only [blockedRuns, List.mem_cons, List.not_mem_nil, or_false] at hr
  rcases hr with rfl | rfl <;> rfl

theorem found_steps_block (rt : Runtime R) (c : Case) (sources : List Source) (budget : RunBudget) :
    Block c.caseId (foundResult rt c sources budget).agentSteps := by
  refine block_of_nodup (f := AgentStep.agentRunId) ?_ ?_
    (runIds_nodup c.caseId [.retrieval, .critic] (by decide))
  · intro st hst
    simp only [foundResult, investigationResult, List.mem_append, List.mem_singleton] at hst
    rcases hst with rfl | rfl
    · exact ⟨.retrieval, rfl, rfl⟩
    · exact ⟨.critic, rfl, rfl⟩
  · rintro st st' ⟨role, hrun, hid⟩ ⟨role', hrun', hid'⟩ (hclash | hclash)
    · have hclash : st.stepId = st'.stepId := hclash
      rw [hid, hid'] at hclash
      rw [hrun, hrun']
      exact (String.append_right_inj _).mp ((String.append_left_inj _).mp hclash)
    · exact congrArg Prod.fst hclash

theorem found_handoffs_block (rt : Runtime R) (c : Case) (sources : List Source)
    (budget : RunBudget) :
    Block c.caseId (foundResult rt c sources budget).agentHandoffs := by
  refine block_of_nodup (f := AgentHandoff.childRunId) ?_ ?_
    (runIds_nodup c.caseId [.retrieval, .critic] (by decide))
  · intro h hh
    simp only [foundResult, investigationResult, List.mem_cons, List.not_mem_nil, or_false] at hh
    rcases hh with rfl | rfl
    · exact ⟨rfl, .retrieval, rfl, rfl⟩
    · exact ⟨rfl, .critic, rfl, rfl⟩
  · rintro h h' ⟨-, role, hid, hchild⟩ ⟨-, role', hid', hchild'⟩ (hclash | hclash)
    · have hclash : h.handoffId = h'.handoffId := hclash
      rw [hid, hid'] at hclash
      obtain ⟨-, hrole⟩ := composed_inj (not_mem_roleValue _) (not_mem_roleValue _) hclash
      rw [hchild, hchild', roleValue_injective hrole]
    · exact hclash

/-- The rows of a run fit together and are filed under its case; its evidence
    is filed under the source alone. -/
structure Shaped (a : CaseArtifacts R) : Prop where
  evidence : ∀ e ∈ a.evidence, e.caseId = a.case.caseId ∧ e.evidenceId = "EVID-" ++ e.sourceId
  claims : Block a.case.caseId a.claims
  authority : Owns a.case.caseId a.authority
  review : Block a.case.caseId a.review.toList
  outcome : Owns a.case.caseId a.outcome
  trace : Block a.case.caseId a.traceEvents
  stages : ∀ r ∈ a.agentRuns, r.stage = "INVESTIGATE"
  runs : Block a.case.caseId a.agentRuns
  steps : Block a.case.caseId a.agentSteps
  stepRuns : ∀ st ∈ a.agentSteps, st.agentRunId ∈ a.agentRuns.map AgentRun.agentRunId
  handoffs : Block a.case.caseId a.agentHandoffs
  handoffRuns : ∀ h ∈ a.agentHandoffs, h.parentRunId ∈ a.agentRuns.map AgentRun.agentRunId
  report : Block a.case.caseId a.guardrailReport.toList

theorem shaped_blocked (left : RunBudget) (e : BudgetExceeded) {trace : TraceRecorder}
    (hnumbered : Numbered trace) (hcase : trace.caseId = c.caseId) :
    Shaped (blockedArtifacts rt c e (blockedRuns rt c left e) trace) where
  evidence _ he := absurd he List.not_mem_nil
  claims := block_nil _
  authority := ⟨rfl, rfl⟩
  review := block_nil _
  outcome := ⟨rfl, rfl⟩
  trace := hcase ▸ trace_block (hnumbered.record _)
  stages r hr := by
    simp only [blockedArtifacts, blockedRuns, List.mem_cons, List.not_mem_nil, or_false] at hr
    rcases hr with rfl | rfl <;> rfl
  runs := blocked_runs_block left e
  steps := block_nil _
  stepRuns _ hst := absurd hst List.not_mem_nil
  handoffs := block_nil _
  handoffRuns _ hh := absurd hh List.not_mem_nil
  report := block_nil _

theorem shaped_completed {review : Option ReviewTask} {report : GuardrailReport R}
    (hfiled : Filed rt c sources review report) (entries : List Entry) :
    Shaped (completedArtifacts rt c sources budget review report entries) where
  evidence e he := by
    obtain ⟨s, -, rfl⟩ := List.mem_map.mp he
    exact ⟨Validation.settled_caseId .., by simp⟩
  claims := claims_block (Resolution.resolvedClaims_ids c _) (by
    show ((Resolution.resolvedClaims rt c _).map Claim.claimType).Nodup
    rw [Resolution.resolvedClaims_types]
    decide)
  authority := ⟨rfl, rfl⟩
  review := by
    cases review with
    | none => exact block_nil _
    | some task =>
        obtain ⟨primary, -, rfl⟩ := hfiled.review_eq task rfl
        exact block_singleton ⟨rfl, rfl⟩
  outcome := ⟨rfl, rfl⟩
  trace := by
    have hopened : Numbered (openedTrace rt c.caseId) := (numbered_start rt c.caseId).record _
    have hnumbered : Numbered ((openedTrace rt c.caseId).recordAll rt entries) :=
      hopened.recordAll entries
    have hblock := trace_block hnumbered
    rwa [recordAll_caseId] at hblock
  stages r hr := by
    simp only [completedArtifacts, foundResult, investigationResult, List.mem_cons,
      List.not_mem_nil, or_false] at hr
    rcases hr with rfl | rfl | rfl <;> rfl
  runs := found_runs_block rt c sources budget
  steps := found_steps_block rt c sources budget
  stepRuns st hst := by
    simp only [completedArtifacts, foundResult, investigationResult, List.mem_append,
      List.mem_singleton] at hst
    rcases hst with rfl | rfl
    · exact List.mem_cons_of_mem _ List.mem_cons_self
    · exact List.mem_cons_of_mem _ (List.mem_cons_of_mem _ List.mem_cons_self)
  handoffs := found_handoffs_block rt c sources budget
  handoffRuns h hh := by
    simp only [completedArtifacts, foundResult, investigationResult, List.mem_cons,
      List.not_mem_nil, or_false] at hh
    rcases hh with rfl | rfl <;> exact List.mem_cons_self
  report := block_singleton ⟨hfiled.reportCase_eq, hfiled.reportId_eq⟩

/-- **EVERY RUN IS SHAPED**, however it ended. -/
theorem shaped_of_run {a : CaseArtifacts R} (h : runCasePipeline rt c sources budget = .ok a) :
    Shaped a ∧ a.case = c := by
  by_cases hspent : budget.Spent
  · rw [run_of_spent hspent] at h
    obtain rfl := Except.ok.inj h
    refine ⟨shaped_blocked _ _ ?_ rfl, rfl⟩
    exact ((numbered_start rt c.caseId).record _).record _
  · obtain ⟨review, report, entries, hrun, hfiled⟩ := run_of_left rt c sources hspent
    rw [hrun] at h
    obtain rfl := Except.ok.inj h
    exact ⟨shaped_completed hfiled entries, rfl⟩

end CaseKeys
