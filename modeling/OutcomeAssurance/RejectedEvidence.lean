import OutcomeAssurance.EvidenceView
import OutcomeAssurance.FaultVerdict

/-! # Rejected evidence

    A source that fails its own checks is not admitted, but the comparison of
    fault assessments still counts its conclusion, and once the assessments
    disagree the claims cite whatever candidate words a fault. -/

namespace RejectedEvidence

open CaseModel PyRuntime Investigation Validation Resolution Pipeline EvidenceView

variable {R : Type} {rt : Runtime R} {c : Case} {pre post : List Source} {x : Source}

/-- What a claim says: status, reasons and citations of its type. -/
def finding (cl : Claim) :
    ClaimType × ClaimStatus × List ReasonCode × List String × List String :=
  (cl.claimType, cl.status, cl.reasonCodes, cl.evidenceIds, cl.counterEvidenceIds)

/-- Two runs find and decide the same. -/
structure Uninfluenced (a a' : CaseArtifacts R) : Prop where
  findings : a.claims.map finding = a'.claims.map finding
  decision : a.authority.decision = a'.authority.decision
  reasonCodes : a.authority.reasonCodes = a'.authority.reasonCodes

/-- The rejected source neither makes the fault assessments of the other
    candidates disagree nor, where they disagree anyway, words a fault. -/
def Harmless (rt : Runtime R) (c : Case) (others : List Source) (x : Source) : Prop :=
  ¬ Disagree (x :: candidatesOf c others) ∨
    Disagree (candidatesOf c others) ∧ ¬ (saysMajor rt x.text = true ∨ saysMinor rt x.text = true)

/-! ## An item that is not admitted -/

section Facts

variable {fs gs : List Facts} {f : Facts}

theorem admittedOf_insert (h : f.admitted = false) :
    Facts.admittedOf (fs ++ f :: gs) = Facts.admittedOf (fs ++ gs) := by
  simp only [Facts.admittedOf, List.filter_append, List.filter_cons, h, Bool.false_eq_true,
    if_false]

theorem disputed_insert (h : Facts.disputed (fs ++ gs) = true) :
    Facts.disputed (fs ++ f :: gs) = true := by
  simp only [Facts.disputed, List.any_append, List.any_cons, Bool.or_eq_true] at h ⊢
  exact h.imp_right Or.inr

/-- The claims read the item as fault evidence only. -/
theorem claims_insert (c : Case) (hadmitted : f.admitted = false)
    (hdisputed : Facts.disputed (fs ++ f :: gs) = Facts.disputed (fs ++ gs))
    (hfault : Facts.faultOf (fs ++ f :: gs) = Facts.faultOf (fs ++ gs)) :
    Facts.claims c (fs ++ f :: gs) = Facts.claims c (fs ++ gs)
      ∧ Facts.rule c (fs ++ f :: gs) = Facts.rule c (fs ++ gs) := by
  have hadmittedOf : Facts.admittedOf (fs ++ f :: gs) = Facts.admittedOf (fs ++ gs) :=
    admittedOf_insert hadmitted
  have hescalation : Facts.escalationOf (fs ++ f :: gs) = Facts.escalationOf (fs ++ gs) := by
    rw [Facts.escalationOf, hadmittedOf, Facts.escalationOf]
  have hmajor : Facts.majorOf (fs ++ f :: gs) = Facts.majorOf (fs ++ gs) := by
    rw [Facts.majorOf, hfault, Facts.majorOf]
  have hminor : Facts.minorOf (fs ++ f :: gs) = Facts.minorOf (fs ++ gs) := by
    rw [Facts.minorOf, hfault, Facts.minorOf]
  have hverdict : Facts.verdict (fs ++ f :: gs) = Facts.verdict (fs ++ gs) := by
    rw [Facts.verdict, hdisputed, hfault, hmajor, hminor, Facts.verdict]
  constructor
  · rw [Facts.claims, hadmittedOf, hescalation, hdisputed, hfault, hverdict, Facts.claims]
  · rw [Facts.rule, hescalation, hverdict, Facts.rule]

/-- Undisputed facts are read where they are admitted. -/
theorem faultOf_undisputed (hadmitted : f.admitted = false)
    (hdisputed : Facts.disputed (fs ++ f :: gs) = false)
    (hdisputed' : Facts.disputed (fs ++ gs) = false) :
    Facts.faultOf (fs ++ f :: gs) = Facts.faultOf (fs ++ gs) := by
  rw [Facts.faultOf, Facts.faultOf, hdisputed, hdisputed', if_neg Bool.false_ne_true,
    if_neg Bool.false_ne_true, admittedOf_insert hadmitted]

/-- Disputed facts are all read, whether admitted or not. -/
theorem faultOf_disputed (h : Facts.disputed (fs ++ gs) = true) :
    Facts.faultOf (fs ++ f :: gs) = (fs.filter fun g => g.major || g.minor)
      ++ (if f.major || f.minor then [f] else []) ++ gs.filter fun g => g.major || g.minor := by
  rw [Facts.faultOf, disputed_insert h, if_pos rfl, List.filter_append, List.filter_cons,
    List.append_assoc]
  split <;> rfl

theorem verdict_disputed : Facts.disputed fs = true ↔
    (Facts.verdict fs).reasonCodes = [.contradictionPresent] := by
  rw [Facts.verdict]
  constructor
  · intro h
    rw [if_pos h]
  · intro h
    by_contra hnot
    rw [if_neg hnot] at h
    split at h
    · cases h
    · split at h
      · cases h
      · split at h <;> cases h

/-- The findings of a run show the reasons of the verdict and all fault
    evidence. -/
theorem findings_inj (h : (Facts.claims c fs).map finding = (Facts.claims c gs).map finding) :
    (Facts.verdict fs).reasonCodes = (Facts.verdict gs).reasonCodes
      ∧ Facts.ids (Facts.faultOf fs) = Facts.ids (Facts.faultOf gs) := by
  have hverdict := congrArg (fun findings => findings[5]?.map fun p => p.2.2.1) h
  have havailable := congrArg (fun findings => findings[4]?.map fun p => p.2.2.2.1) h
  exact ⟨Option.some.inj hverdict, Option.some.inj havailable⟩

end Facts

/-! ## Runs with and without the source -/

theorem disputed_runFacts (rt : Runtime R) (c : Case) {sources : List Source}
    (h : (sources.map Source.sourceId).Nodup) :
    Facts.disputed (runFacts rt c sources) = contradicted (candidatesOf c sources) := by
  rw [← factsOf_runEvidence rt c h, disputed_factsOf, FaultVerdict.contradictory_runEvidence]

theorem candidates_insert (hlisted : x.sourceId ∈ c.sourceRefs) :
    candidatesOf c (pre ++ x :: post) = candidatesOf c pre ++ x :: candidatesOf c post := by
  rw [candidatesOf, List.filter_append, List.filter_cons, if_pos (decide_eq_true hlisted)]
  rfl

theorem candidates_append (c : Case) (pre post : List Source) :
    candidatesOf c (pre ++ post) = candidatesOf c pre ++ candidatesOf c post :=
  List.filter_append ..

theorem disagree_insert (hlisted : x.sourceId ∈ c.sourceRefs) :
    Disagree (candidatesOf c (pre ++ x :: post))
      ↔ Disagree (x :: candidatesOf c (pre ++ post)) := by
  have hperm : (candidatesOf c (pre ++ x :: post)).Perm (x :: candidatesOf c (pre ++ post)) := by
    rw [candidates_insert hlisted, candidates_append]
    exact List.perm_middle
  exact ⟨fun h => h.mono (hperm.map _).subset, fun h => h.mono (hperm.map _).symm.subset⟩

/-- Where the comparison ends the same way, the facts of the other candidates
    stay the same. -/
theorem runFacts_insert (rt : Runtime R) (hlisted : x.sourceId ∈ c.sourceRefs)
    (hsame : contradicted (candidatesOf c (pre ++ x :: post)) =
      contradicted (candidatesOf c (pre ++ post))) :
    ∃ fs gs, runFacts rt c (pre ++ post) = fs ++ gs ∧ runFacts rt c (pre ++ x :: post) =
      fs ++ sourceFacts rt c (contradicted (candidatesOf c (pre ++ post))) x :: gs := by
  let facts := sourceFacts rt c (contradicted (candidatesOf c (pre ++ post)))
  refine ⟨(candidatesOf c pre).map facts, (candidatesOf c post).map facts, ?_, ?_⟩
  · rw [← List.map_append, ← candidates_append]
    rfl
  · rw [runFacts, hsame, candidates_insert hlisted, List.map_append, List.map_cons]

section Runs

variable (hdistinct : ((pre ++ x :: post).map Source.sourceId).Nodup)
  (hlisted : x.sourceId ∈ c.sourceRefs) (hrejected : passes c x = false)

include hdistinct

theorem distinct_without : ((pre ++ post).map Source.sourceId).Nodup :=
  hdistinct.sublist (((List.sublist_cons_self x post).append_left pre).map _)

include hlisted

theorem contradicted_with :
    contradicted (candidatesOf c (pre ++ x :: post)) = true ↔
      Disagree (x :: candidatesOf c (pre ++ post)) := by
  rw [contradicted_iff_disagree (candidates_nodup c hdistinct), disagree_insert hlisted]

include hrejected

/-- A harmless source leaves claims and ruling as they were. -/
theorem unchanged_of_harmless (h : Harmless rt c (pre ++ post) x) :
    Facts.claims c (runFacts rt c (pre ++ x :: post)) = Facts.claims c (runFacts rt c (pre ++ post))
      ∧ Facts.rule c (runFacts rt c (pre ++ x :: post)) =
        Facts.rule c (runFacts rt c (pre ++ post)) := by
  have hdistinct' := distinct_without hdistinct
  have hwith := disputed_runFacts rt c hdistinct
  have hwithout := disputed_runFacts rt c hdistinct'
  have hiff := contradicted_with hdistinct hlisted
  have hiff' := contradicted_iff_disagree (candidates_nodup c hdistinct')
  have hsame : contradicted (candidatesOf c (pre ++ x :: post)) =
      contradicted (candidatesOf c (pre ++ post)) := by
    rw [Bool.eq_iff_iff, hiff, hiff']
    have hmono : Disagree (candidatesOf c (pre ++ post)) →
        Disagree (x :: candidatesOf c (pre ++ post)) :=
      fun hd => hd.mono (List.subset_cons_self _ _)
    rcases h with hnot | ⟨hd, -⟩
    · exact iff_of_false hnot fun hd => hnot (hmono hd)
    · exact iff_of_true (hmono hd) hd
  obtain ⟨fs, gs, hfacts, hfacts'⟩ := runFacts_insert rt hlisted hsame
  have hadmitted : (sourceFacts rt c (contradicted (candidatesOf c (pre ++ post))) x).admitted
      = false := by
    rw [sourceFacts, hrejected, Bool.false_and]
  rw [hfacts'] at hwith
  rw [hfacts] at hwithout
  have hdisputed := hwith.trans (hsame.trans hwithout.symm)
  rw [hfacts, hfacts']
  refine claims_insert c hadmitted hdisputed ?_
  rcases h with hnot | ⟨hd, hquiet⟩
  · have hfalse : contradicted (candidatesOf c (pre ++ x :: post)) = false :=
      Bool.eq_false_iff.mpr (hiff.not.mpr hnot)
    exact faultOf_undisputed hadmitted (hwith.trans hfalse)
      (hwithout.trans (hsame.symm.trans hfalse))
  · have htrue := hwithout.trans (hiff'.mpr hd)
    have hwords : ((sourceFacts rt c (contradicted (candidatesOf c (pre ++ post))) x).major
        || (sourceFacts rt c (contradicted (candidatesOf c (pre ++ post))) x).minor) = false := by
      rw [Bool.eq_false_iff, ne_eq, Bool.or_eq_true]
      exact hquiet
    rw [faultOf_disputed htrue, hwords, if_neg Bool.false_ne_true, Facts.faultOf, htrue, if_pos rfl,
      List.filter_append, List.append_nil]

omit hrejected

/-- A source that is not harmless shows in the verdict's reasons or among the
    cited items. -/
theorem harmless_of_findings
    (h : (Facts.claims c (runFacts rt c (pre ++ post))).map finding =
      (Facts.claims c (runFacts rt c (pre ++ x :: post))).map finding) :
    Harmless rt c (pre ++ post) x := by
  have hdistinct' := distinct_without hdistinct
  have hwith := disputed_runFacts rt c hdistinct
  have hwithout := disputed_runFacts rt c hdistinct'
  have hiff := contradicted_with hdistinct hlisted
  have hiff' := contradicted_iff_disagree (candidates_nodup c hdistinct')
  obtain ⟨hreasons, hids⟩ := findings_inj h
  by_cases hnot : Disagree (x :: candidatesOf c (pre ++ post))
  · right
    -- the reasons of the verdict tell whether the assessments disagree
    have hd : Disagree (candidatesOf c (pre ++ post)) := by
      rw [← hiff', ← hwithout, verdict_disputed, hreasons, ← verdict_disputed, hwith, hiff]
      exact hnot
    refine ⟨hd, fun hwords => ?_⟩
    have hsame : contradicted (candidatesOf c (pre ++ x :: post)) =
        contradicted (candidatesOf c (pre ++ post)) :=
      (hiff.mpr hnot).trans (hiff'.mpr hd).symm
    obtain ⟨fs, gs, hfacts, hfacts'⟩ := runFacts_insert rt hlisted hsame
    rw [hfacts, hiff'.mpr hd] at hwithout
    have hcited : ((sourceFacts rt c (contradicted (candidatesOf c (pre ++ post))) x).major
        || (sourceFacts rt c (contradicted (candidatesOf c (pre ++ post))) x).minor) = true :=
      (Bool.or_eq_true ..).mpr hwords
    have hlength := congrArg List.length hids
    rw [hfacts, hfacts', faultOf_disputed hwithout, hcited, if_pos rfl, Facts.faultOf, hwithout,
      if_pos rfl, List.filter_append] at hlength
    simp only [Facts.ids, List.length_map, List.length_append, List.length_singleton] at hlength
    omega
  · exact Or.inl hnot

end Runs

/-- With a tool call left, a rejected source has no influence exactly when it
    is harmless. -/
theorem uninfluenced_of_left (rt : Runtime R) {budget : RunBudget} (h : ¬ budget.Spent)
    (c : Case) (pre post : List Source) (x : Source)
    (hdistinct : ((pre ++ x :: post).map Source.sourceId).Nodup)
    (hlisted : x.sourceId ∈ c.sourceRefs) (hrejected : passes c x = false) :
    (∃ a a', runCasePipeline rt c (pre ++ post) budget = .ok a ∧
      runCasePipeline rt c (pre ++ x :: post) budget = .ok a' ∧ Uninfluenced a a') ↔
        Harmless rt c (pre ++ post) x := by
  have hdistinct' := distinct_without hdistinct
  obtain ⟨report, entries, hrun, -⟩ := run_recorded rt c (pre ++ post) h
  obtain ⟨report', entries', hrun', -⟩ := run_recorded rt c (pre ++ x :: post) h
  have hclaims := claims_of_run rt c hdistinct'
  have hclaims' := claims_of_run rt c hdistinct
  constructor
  · rintro ⟨a, a', ha, ha', hsame⟩
    obtain rfl := Except.ok.inj (hrun.symm.trans ha)
    obtain rfl := Except.ok.inj (hrun'.symm.trans ha')
    have hfindings := hsame.findings
    change (resolvedClaims rt c (runEvidence rt c (pre ++ post))).map finding =
      (resolvedClaims rt c (runEvidence rt c (pre ++ x :: post))).map finding at hfindings
    rw [hclaims, hclaims'] at hfindings
    exact harmless_of_findings hdistinct hlisted hfindings
  · intro hharmless
    obtain ⟨hsameClaims, hsameRule⟩ := unchanged_of_harmless hdistinct hlisted hrejected hharmless
    have hauthority : runAuthority rt c (pre ++ post) = runAuthority rt c (pre ++ x :: post) := by
      rw [runAuthority, runAuthority, ruling_of_run rt c hdistinct', ruling_of_run rt c hdistinct,
        hsameRule]
    refine ⟨_, _, hrun, hrun', ?_, congrArg AuthorityRecord.decision hauthority,
      congrArg AuthorityRecord.reasonCodes hauthority⟩
    show (resolvedClaims rt c (runEvidence rt c (pre ++ post))).map finding =
      (resolvedClaims rt c (runEvidence rt c (pre ++ x :: post))).map finding
    rw [hclaims, hclaims', hsameClaims]

/-- **WHEN REJECTED EVIDENCE HAS NO INFLUENCE**: exactly when no tool call is
    left or the source is harmless. -/
theorem uninfluenced_iff (rt : Runtime R) (c : Case) (pre post : List Source) (x : Source)
    (hdistinct : ((pre ++ x :: post).map Source.sourceId).Nodup)
    (hlisted : x.sourceId ∈ c.sourceRefs) (hrejected : passes c x = false) (budget : RunBudget) :
    (∃ a a', runCasePipeline rt c (pre ++ post) budget = .ok a ∧
      runCasePipeline rt c (pre ++ x :: post) budget = .ok a' ∧ Uninfluenced a a') ↔
        budget.Spent ∨ Harmless rt c (pre ++ post) x := by
  by_cases hspent : budget.Spent
  · exact iff_of_true ⟨_, _, run_of_spent hspent, run_of_spent hspent, rfl, rfl, rfl⟩
      (Or.inl hspent)
  · rw [uninfluenced_of_left rt hspent c pre post x hdistinct hlisted hrejected,
      or_iff_right hspent]

/-- The shipped guidance with a hash that does not match is left out of
    account. -/
theorem tampered_guidance_ignored :
    ∃ a a', runCasePipeline (default : Runtime Float) Fixtures.hero [Fixtures.kogan] {} = .ok a ∧
      runCasePipeline (default : Runtime Float) Fixtures.hero
        [Fixtures.kogan, { Fixtures.accc with tamperedHash := true }] {} = .ok a' ∧
      Uninfluenced a a' := by
  refine (uninfluenced_iff default Fixtures.hero [Fixtures.kogan] []
    { Fixtures.accc with tamperedHash := true } (by decide) (by decide) (by decide) {}).mpr ?_
  right
  left
  rintro ⟨s, hs, -, -, hfault, -⟩
  rcases List.mem_pair.mp hs with rfl | rfl <;> exact absurd hfault (by decide)

/-! ## A rejected report that lifts a denial -/

/-- The shipped case with a minor fault, that also refers to an old report. -/
def twoReports : Case :=
  { Fixtures.minorFaultCase with
    sourceRefs := "SRC-FAULT-OLD" :: Fixtures.minorFaultCase.sourceRefs }

/-- A report that is not allowed for evidence. -/
def disallowedReport : Source :=
  { Fixtures.faultMajor with sourceId := "SRC-FAULT-OLD", allowedForEvidence := false }

def otherSources : List Source := [Fixtures.kogan, Fixtures.accc, Fixtures.faultMinor]

theorem disallowed_not_harmless (rt : Runtime R) :
    ¬ Harmless rt twoReports otherSources disallowedReport := by
  have hothers : ((candidatesOf twoReports otherSources).map Source.sourceId).Nodup := by decide
  have hall : ((disallowedReport :: candidatesOf twoReports otherSources).map
      Source.sourceId).Nodup := by decide
  rintro (hnot | ⟨hd, -⟩)
  · exact hnot ((contradicted_iff_disagree hall).mp (by decide))
  · exact absurd ((contradicted_iff_disagree hothers).mpr hd) (by decide)

/-- The report is rejected, and yet every runtime decides otherwise with it. -/
theorem disallowed_report_counts :
    ¬ ∃ rt : Runtime Float, ∃ a a',
      runCasePipeline rt twoReports otherSources {} = .ok a ∧
      runCasePipeline rt twoReports (disallowedReport :: otherSources) {} = .ok a' ∧
      Uninfluenced a a' := by
  rintro ⟨rt, hrun⟩
  exact disallowed_not_harmless rt ((uninfluenced_of_left rt (by decide) twoReports [] otherSources
    disallowedReport (by decide) (by decide) (by decide)).mp hrun)

end RejectedEvidence
