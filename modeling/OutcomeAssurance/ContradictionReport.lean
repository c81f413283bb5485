import OutcomeAssurance.Citations
import OutcomeAssurance.EvidenceView
import OutcomeAssurance.FaultConflict

/-! # How a contradiction is reported

    Under a contradiction that is detected the claims cite all items that say
    anything about the fault, for and against; a text that says both is cited on
    both sides, and the reason codes say that fault evidence is missing although
    it is cited.  One that is not detected, because the versions that disagree
    share a source id, is reported like any other case. -/

namespace ContradictionReport

open CaseModel PyDict PyRuntime Investigation Validation Resolution Pipeline FaultVerdict
open Citations (citedIds cited_of_claim citable citable_of_cited citedIds_either)
open FaultConflict (ConclusionsConflict)

variable {R : Type} {rt : Runtime R} {c : Case} {sources : List Source} {budget : RunBudget}

/-! ## The report -/

/-- The codes that say that fault evidence is missing. -/
def missingFaultReasons : List ReasonCode :=
  [.noFaultAssessmentEvidence, .faultAssessmentUnavailable, .missingFaultEvidence]

/-- Some claim cites an item that comes from a fault assessment; items and
    candidates correspond by position. -/
def CitesFault (c : Case) (sources : List Source) (a : CaseArtifacts R) : Prop :=
  ∃ cl ∈ a.claims, ∃ id ∈ citedIds cl, ∃ s e,
    (s, e) ∈ (candidatesOf c sources).zip a.evidence ∧ e.evidenceId = id
      ∧ s.sourceClass = "fault_assessment"

/-- The two sides are kept apart, and nothing is called missing that is cited. -/
structure ReportedFaithfully (c : Case) (sources : List Source) (a : CaseArtifacts R) : Prop where
  apart : ∀ cl ∈ a.claims, cl.claimType = .majorFailureEstablished →
    ∀ id ∈ cl.evidenceIds, id ∉ cl.counterEvidenceIds
  claims : CitesFault c sources a →
    ∀ cl ∈ a.claims, ∀ r ∈ missingFaultReasons, r ∉ cl.reasonCodes
  review : CitesFault c sources a →
    ∀ task ∈ a.review, ∀ r ∈ missingFaultReasons, r.name ∉ task.reasonCodes

/-! ## The condition on the inputs -/

/-- Two candidates with one source id, themselves for instance, say "major
    failure" and "minor" or "cosmetic". -/
def SaysBoth (rt : Runtime R) (c : Case) (sources : List Source) : Prop :=
  ∃ s ∈ candidatesOf c sources, ∃ t ∈ candidatesOf c sources, t.sourceId = s.sourceId
    ∧ saysMajor rt s.text = true ∧ saysMinor rt t.text = true

/-- A fault assessment shares its source id with a candidate, itself for
    instance, that says anything about the fault. -/
def FaultWorded (rt : Runtime R) (c : Case) (sources : List Source) : Prop :=
  ∃ f ∈ candidatesOf c sources, f.sourceClass = "fault_assessment" ∧
    ∃ s ∈ candidatesOf c sources, s.sourceId = f.sourceId
      ∧ (saysMajor rt s.text || saysMinor rt s.text) = true

/-- A fault assessment shares its source id with a candidate, itself for
    instance, that passes its own checks. -/
def FaultPassing (c : Case) (sources : List Source) : Prop :=
  ∃ f ∈ candidatesOf c sources, f.sourceClass = "fault_assessment" ∧
    ∃ s ∈ candidatesOf c sources, s.sourceId = f.sourceId ∧ passes c s = true

/-! ## What is cited under a contradiction -/

/-- The candidates with a wording, as they are cited. -/
def wordedIds (c : Case) (sources : List Source) (wording : String → Bool) : List String :=
  ((candidatesOf c sources).filter fun s => wording s.text).map fun s => "EVID-" ++ s.sourceId

theorem mem_wordedIds {wording : String → Bool} {id : String} :
    id ∈ wordedIds c sources wording ↔
      ∃ s ∈ candidatesOf c sources, wording s.text = true ∧ "EVID-" ++ s.sourceId = id := by
  simp only [wordedIds, List.mem_map, List.mem_filter, and_assoc]

theorem ids_worded (rt : Runtime R) (wording : String → Bool) :
    ((runEvidence rt c sources).filter fun e => wording e.excerpt).map Evidence.evidenceId
      = wordedIds c sources wording := by
  rw [runEvidence, List.filter_map, settled_ids, wordedIds]
  simp only [Function.comp_def, settled_excerpt]

section Contradicted

variable (h : contradicted (candidatesOf c sources) = true)

include h

theorem faultEvidence_all :
    faultEvidence rt (runEvidence rt c sources) =
      (runEvidence rt c sources).filter
        fun e => saysMajor rt e.excerpt || saysMinor rt e.excerpt := by
  rw [faultEvidence, contradictory_runEvidence, h]
  rfl

theorem fault_ids :
    (faultEvidence rt (runEvidence rt c sources)).map Evidence.evidenceId =
      wordedIds c sources fun text => saysMajor rt text || saysMinor rt text := by
  rw [faultEvidence_all h]
  exact ids_worded rt fun text => saysMajor rt text || saysMinor rt text

theorem major_ids :
    (majorSupporting rt (runEvidence rt c sources)).map Evidence.evidenceId =
      wordedIds c sources (saysMajor rt) := by
  rw [majorSupporting, faultEvidence_all h, List.filter_filter, ← ids_worded rt]
  refine congrArg _ (List.filter_congr (fun e _ => ?_))
  cases saysMajor rt e.excerpt <;> simp

theorem minor_ids :
    (minorSupporting rt (runEvidence rt c sources)).map Evidence.evidenceId =
      wordedIds c sources (saysMinor rt) := by
  rw [minorSupporting, faultEvidence_all h, List.filter_filter, ← ids_worded rt]
  refine congrArg _ (List.filter_congr (fun e _ => ?_))
  cases saysMinor rt e.excerpt <;> simp

/-- The verdict under a contradiction: open, with both sides cited. -/
theorem verdict_contradicted :
    faultVerdict rt (runEvidence rt c sources) =
      ⟨.unknown, [.contradictionPresent], wordedIds c sources (saysMajor rt),
        wordedIds c sources (saysMinor rt)⟩ := by
  rw [faultVerdict, contradictory_runEvidence, h, if_pos rfl, major_ids h, minor_ids h]

/-- Every item with the source id of a fault assessment is marked, and so
    rejected. -/
theorem not_admitted_of_fault {f s : Source} (hf : f ∈ candidatesOf c sources)
    (hclass : f.sourceClass = "fault_assessment") (hid : s.sourceId = f.sourceId) :
    isAdmitted (settledEvidence rt c (candidatesOf c sources) s) = false := by
  have hkey : (faultSources (candidatesOf c sources)).has s.sourceId = true := by
    have hmem : (f.sourceId, f) ∈ ((candidatesOf c sources).filter Source.isFaultAssessment).map
        fun s => (s.sourceId, s) :=
      List.mem_map.mpr ⟨f, List.mem_filter.mpr ⟨hf, decide_eq_true hclass⟩, rfl⟩
    rw [hid]
    exact Dict.has_ofPairs.mpr ⟨f, hmem⟩
  have hboth : (contradicted (candidatesOf c sources)
      && (faultSources (candidatesOf c sources)).has s.sourceId) = true := by
    rw [h, hkey]
    rfl
  rw [settledEvidence, markContradiction, if_pos (by exact hboth)]
  exact EvidenceView.isAdmitted_marked _

/-- The fault assessment counts as not available, whatever is cited. -/
theorem exists_unavailable (rt : Runtime R) :
    ∃ cl ∈ resolvedClaims rt c (runEvidence rt c sources),
      cl.claimType = .faultAssessmentAvailable ∧ cl.reasonCodes = [.noFaultAssessmentEvidence]
        ∧ cl.evidenceIds
          = (faultEvidence rt (runEvidence rt c sources)).map Evidence.evidenceId := by
  refine ⟨(resolvedClaims rt c (runEvidence rt c sources)).get ⟨4, by simp [resolvedClaims]⟩,
    List.get_mem _ _, rfl, ?_, rfl⟩
  show (if (!(faultEvidence rt (runEvidence rt c sources)).isEmpty
    && !contradictory (runEvidence rt c sources)) = true then _ else _) = _
  rw [contradictory_runEvidence, h, Bool.not_true, Bool.and_false]
  rfl

/-- No admitted item is a fault assessment, so one is cited for its wording. -/
theorem citesFault_iff {review : Option ReviewModel.ReviewTask} {report : GuardrailReport R}
    {entries : List TraceChain.Entry} :
    CitesFault c sources (completedArtifacts rt c sources budget review report entries) ↔
      FaultWorded rt c sources := by
  constructor
  · rintro ⟨cl, hcl, id, hid, f, e, hzip, rfl, hclass⟩
    obtain ⟨hf, rfl⟩ := mem_zip_runEvidence.mp hzip
    rw [settled_evidenceId] at hid
    rcases cited_of_claim hcl hid with hmem | hmem
    · obtain ⟨e, he, heq⟩ := List.mem_map.mp hmem
      obtain ⟨hrun, hadmitted⟩ := List.mem_filter.mp he
      obtain ⟨s, hs, rfl⟩ := List.mem_map.mp hrun
      rw [settled_evidenceId, String.append_right_inj] at heq
      rw [not_admitted_of_fault h hf hclass heq] at hadmitted
      cases hadmitted
    · rw [fault_ids h] at hmem
      obtain ⟨s, hs, hsays, heq⟩ := mem_wordedIds.mp hmem
      exact ⟨f, hf, hclass, s, hs, (String.append_right_inj _).mp heq, hsays⟩
  · rintro ⟨f, hf, hclass, s, hs, hid, hsays⟩
    have hcited : "EVID-" ++ f.sourceId ∈
        (faultEvidence rt (runEvidence rt c sources)).map Evidence.evidenceId := by
      rw [fault_ids h]
      exact mem_wordedIds.mpr ⟨s, hs, hsays, by rw [hid]⟩
    obtain ⟨cl, hcl, -, -, hids⟩ := exists_unavailable h rt
    rw [← hids] at hcited
    exact ⟨cl, hcl, _, List.mem_append_left _ hcited, f, _, mem_zip_runEvidence.mpr ⟨hf, rfl⟩,
      settled_evidenceId .., hclass⟩

/-- In a complete run the sides are kept apart unless the texts of one source
    id say both. -/
theorem apart_iff :
    (∀ cl ∈ resolvedClaims rt c (runEvidence rt c sources),
        cl.claimType = .majorFailureEstablished → ∀ id ∈ cl.evidenceIds, id ∉ cl.counterEvidenceIds)
      ↔ ¬ SaysBoth rt c sources := by
  have hclaim : ∀ cl, (cl ∈ resolvedClaims rt c (runEvidence rt c sources) ∧
      cl.claimType = .majorFailureEstablished) ↔ _ := fun _ => mem_majorFailure
  rw [verdict_contradicted h] at hclaim
  constructor
  · rintro hapart ⟨s, hs, t, ht, hid, hmajor, hminor⟩
    obtain ⟨hcl, htype⟩ := (hclaim _).mpr rfl
    refine hapart _ hcl htype _ (mem_wordedIds.mpr ⟨s, hs, hmajor, rfl⟩) ?_
    exact mem_wordedIds.mpr ⟨t, ht, hminor, by rw [hid]⟩
  · intro hnot cl hcl htype id hid hcounter
    obtain rfl := (hclaim cl).mp ⟨hcl, htype⟩
    obtain ⟨s, hs, hmajor, rfl⟩ := mem_wordedIds.mp hid
    obtain ⟨t, ht, hminor, heq⟩ := mem_wordedIds.mp hcounter
    exact hnot ⟨s, hs, t, ht, (String.append_right_inj _).mp heq, hmajor, hminor⟩

variable (rt) in
/-- **A DETECTED CONTRADICTION.** -/
theorem reported_of_contradicted (hleft : ¬ budget.Spent) :
    (∃ a, runCasePipeline rt c sources budget = .ok a ∧ ReportedFaithfully c sources a) ↔
      ¬ SaysBoth rt c sources ∧ ¬ FaultWorded rt c sources := by
  obtain ⟨review, report, entries, hrun, -⟩ := run_of_left rt c sources hleft
  have hcites : CitesFault c sources
      (completedArtifacts rt c sources budget review report entries) ↔ FaultWorded rt c sources :=
    citesFault_iff h
  rw [exists_run_iff hrun, ← apart_iff h, ← hcites]
  constructor
  · rintro ⟨hapart, hclaims, -⟩
    refine ⟨hapart, fun hcited => ?_⟩
    obtain ⟨cl, hcl, -, hreasons, -⟩ := exists_unavailable h rt
    refine hclaims hcited cl hcl .noFaultAssessmentEvidence ?_ ?_
    · exact List.mem_cons_self
    · rw [hreasons]
      exact List.mem_cons_self
  · rintro ⟨hapart, hnot⟩
    exact ⟨hapart, fun hcited => absurd hcited hnot, fun hcited => absurd hcited hnot⟩

end Contradicted

/-! ## The reasons of a settled verdict -/

/-- The reasons a ruling can give when the verdict is not open. -/
def settledReasons : List ReasonCode :=
  [.wrongOrderBinding, .wrongSellerBinding, .wrongProductBinding, .majorFailureConfirmed,
    .majorFailureNotEstablished, .refundRequiresReview, .escalationPathAvailable]

theorem bindingReasons_subset (c : Case) :
    bindingReasons c ⊆ [.wrongOrderBinding, .wrongSellerBinding, .wrongProductBinding] := by
  intro r hr
  rw [bindingReasons] at hr
  split at hr
  · obtain rfl := List.mem_singleton.mp hr
    exact List.mem_cons_self
  · simp only [List.mem_append, mem_flag] at hr
    rcases hr with (⟨rfl, -⟩ | ⟨rfl, -⟩) | ⟨rfl, -⟩ <;> decide

theorem ruling_reasons {majorFailure : ClaimStatus} (hopen : majorFailure ≠ .unknown)
    (escalation : ClaimStatus) :
    (ruling (orderClaim c) majorFailure escalation).reasonCodes ⊆ settledReasons := by
  have hbase : (baseRuling (orderClaim c) majorFailure).reasonCodes ⊆ settledReasons := by
    rw [baseRuling.eq_def]
    split
    · next hfalse =>
        -- the codes of the order claim, which is not TRUE
        have hmatch : bindingMatch c = false := by
          cases hmatch : bindingMatch c with
          | false => rfl
          | true => simp [orderClaim, either, claim, hmatch] at hfalse
        have hcodes : (orderClaim c).reasonCodes = bindingReasons c := by
          simp [orderClaim, either, claim, hmatch]
        rw [hcodes]
        exact List.Subset.trans (bindingReasons_subset c) (by decide)
    · cases majorFailure with
      | unknown => exact absurd rfl hopen
      | true => decide
      | false => decide
  rw [ruling]
  split
  · have hnote : [ReasonCode.escalationPathAvailable] ⊆ settledReasons := by decide
    exact List.append_subset.mpr ⟨hbase, hnote⟩
  · exact hbase

/-- A review of a settled verdict calls nothing missing. -/
theorem review_reasons {evidence : List (Evidence R)}
    (hopen : (faultVerdict rt evidence).status ≠ .unknown) {primary : ReasonCode}
    (hprimary : primaryReason (caseRuling rt c evidence).reasonCodes = some primary) :
    ∀ r ∈ missingFaultReasons,
      r.name ∉ (reviewTask c (caseRuling rt c evidence).reasonCodes primary).reasonCodes := by
  have hcodes : (caseRuling rt c evidence).reasonCodes ⊆ settledReasons := ruling_reasons hopen _
  have hmem : primary ∈ settledReasons := by
    rw [primaryReason, if_neg fun hin => absurd (hcodes hin) (by decide)] at hprimary
    exact hcodes (List.mem_of_mem_head? hprimary)
  have hnames : ∀ r ∈ missingFaultReasons, ∀ r' ∈ settledReasons, r'.name ≠ r.name := by decide
  intro r hr hin
  obtain ⟨r', hr', heq⟩ := List.mem_map.mp hin
  refine hnames r hr r' ?_ heq
  rcases List.mem_cons.mp hr' with rfl | hrest
  · exact hmem
  · exact hcodes (List.mem_of_mem_filter hrest)

/-! ## Where no contradiction is detected -/

section Agreed

variable (h : contradicted (candidatesOf c sources) = false)

include h

/-- The claims cite admitted items only, and one of them cites them all. -/
theorem citesFault_agreed_iff {review : Option ReviewModel.ReviewTask}
    {report : GuardrailReport R} {entries : List TraceChain.Entry} :
    CitesFault c sources (completedArtifacts rt c sources budget review report entries) ↔
      FaultPassing c sources := by
  have hcitable : citable (runEvidence rt c sources)
      = admittedEvidence (runEvidence rt c sources) := by
    rw [citable, contradictory_runEvidence, h, if_neg Bool.false_ne_true]
  constructor
  · rintro ⟨cl, hcl, id, hid, f, e, hzip, rfl, hclass⟩
    obtain ⟨hf, rfl⟩ := mem_zip_runEvidence.mp hzip
    obtain ⟨e, he, heq⟩ := citable_of_cited hcl hid
    rw [hcitable] at he
    obtain ⟨hrun, hadmitted⟩ := List.mem_filter.mp he
    obtain ⟨s, hs, rfl⟩ := List.mem_map.mp hrun
    rw [isAdmitted_settled h] at hadmitted
    rw [settled_evidenceId, settled_evidenceId, String.append_right_inj] at heq
    exact ⟨f, hf, hclass, s, hs, heq, hadmitted⟩
  · rintro ⟨f, hf, hclass, s, hs, hid, hpasses⟩
    refine ⟨(resolvedClaims rt c (runEvidence rt c sources)).get ⟨1, by simp [resolvedClaims]⟩,
      List.get_mem _ _, "EVID-" ++ f.sourceId, List.mem_append_left _ ?_, f, _,
      mem_zip_runEvidence.mpr ⟨hf, rfl⟩, settled_evidenceId .., hclass⟩
    show _ ∈ (admittedEvidence (runEvidence rt c sources)).map Evidence.evidenceId
    refine List.mem_map.mpr ⟨settledEvidence rt c (candidatesOf c sources) s, ?_, ?_⟩
    · refine List.mem_filter.mpr ⟨List.mem_map.mpr ⟨s, hs, rfl⟩, ?_⟩
      rw [isAdmitted_settled h, hpasses]
    · rw [settled_evidenceId, hid]

variable (rt) in
/-- There is fault evidence exactly when the verdict is read off something. -/
theorem faultEvidence_nil_iff :
    faultEvidence rt (runEvidence rt c sources) = [] ↔ verdictSources rt c sources = [] := by
  have hminor := minorSupporting_eq rt h
  have hmajor := majorSupporting_eq rt h
  constructor
  · intro hnil
    rw [minorSupporting, hnil] at hminor
    rw [majorSupporting, hnil] at hmajor
    rw [verdictSources, List.map_eq_nil_iff.mp hminor.symm, List.map_eq_nil_iff.mp hmajor.symm,
      if_neg fun hne => hne rfl]
  · intro hnil
    by_contra hfault
    rw [verdictSources] at hnil
    split at hnil
    · next hne => exact hne hnil
    · next hne =>
        rcases supporting_of_faultEvidence hfault with hsays | hsays
        · rw [hminor, not_not.mp hne] at hsays
          exact hsays rfl
        · rw [hmajor, hnil] at hsays
          exact hsays rfl

variable (rt) in
/-- The claims of a case with fault evidence, and without. -/
theorem available_reasons :
    ∃ cl ∈ resolvedClaims rt c (runEvidence rt c sources), cl.reasonCodes =
      if verdictSources rt c sources = [] then [.noFaultAssessmentEvidence]
      else [.faultAssessmentAdmitted] := by
  refine ⟨(resolvedClaims rt c (runEvidence rt c sources)).get ⟨4, by simp [resolvedClaims]⟩,
    List.get_mem _ _, ?_⟩
  show (if (!(faultEvidence rt (runEvidence rt c sources)).isEmpty
    && !contradictory (runEvidence rt c sources)) = true then _ else _) = _
  rw [contradictory_runEvidence, h, Bool.not_false, Bool.and_true]
  by_cases hnil : verdictSources rt c sources = []
  · rw [if_pos hnil, (faultEvidence_nil_iff rt h).mpr hnil]
    rfl
  · have hfault := mt (faultEvidence_nil_iff rt h).mp hnil
    rw [if_neg hnil, if_pos (by simpa using hfault)]

/-- No claim of a case with fault evidence calls it missing. -/
theorem claims_reasons (hverdict : verdictSources rt c sources ≠ []) :
    ∀ cl ∈ resolvedClaims rt c (runEvidence rt c sources),
      ∀ r ∈ missingFaultReasons, r ∉ cl.reasonCodes := by
  have hfault := mt (faultEvidence_nil_iff rt h).mp hverdict
  have havailable : (!(faultEvidence rt (runEvidence rt c sources)).isEmpty
      && !contradictory (runEvidence rt c sources)) = true := by
    rw [contradictory_runEvidence, h]
    simpa using hfault
  have heither : ∀ {t : ClaimType} {holds : Bool} {otherwise : ClaimStatus}
      {reasons others : List ReasonCode} {ids : List String},
      (∀ r ∈ missingFaultReasons, r ∉ reasons) → (∀ r ∈ missingFaultReasons, r ∉ others) →
      ∀ r ∈ missingFaultReasons,
        r ∉ (either c t holds otherwise reasons others ids).reasonCodes := by
    intro t holds otherwise reasons others ids hreasons hothers
    cases holds with
    | true => exact hreasons
    | false => exact hothers
  intro cl hcl
  simp only [resolvedClaims, List.mem_cons, List.not_mem_nil, or_false] at hcl
  rcases hcl with rfl | rfl | rfl | rfl | rfl | rfl | rfl | rfl
  · refine heither (by decide) fun r hr hin => ?_
    have hbinding := bindingReasons_subset c hin
    revert hr hbinding
    cases r <;> decide
  · exact heither (by decide) (by decide)
  · exact heither (by decide) (by decide)
  · exact heither (by decide) (by decide)
  · rw [either, if_pos havailable, if_pos havailable]
    show ∀ r ∈ missingFaultReasons, r ∉ [ReasonCode.faultAssessmentAdmitted]
    decide
  · show ∀ r ∈ missingFaultReasons, r ∉ (faultVerdict rt (runEvidence rt c sources)).reasonCodes
    rw [faultVerdict_eq h]
    by_cases hm : passing c sources (saysMinor rt) = []
    · have hM : passing c sources (saysMajor rt) ≠ [] := by
        simpa [verdictSources, hm] using hverdict
      rw [if_neg (not_not.mpr hm), if_pos hM]
      show ∀ r ∈ missingFaultReasons, r ∉ [ReasonCode.faultAssessmentConfirmsMajorFailure]
      decide
    · rw [if_pos hm]
      show ∀ r ∈ missingFaultReasons, r ∉ [ReasonCode.faultAssessmentConfirmsMinorFault]
      decide
  · show ∀ r ∈ missingFaultReasons, r ∉ [ReasonCode.refundNotAutoApprovableByPolicy]
    decide
  · exact heither (by decide) (by decide)

/-- **AN UNDETECTED CONTRADICTION**, and every other case: the sides are apart,
    and fault evidence is called missing where no passing text speaks of the
    fault. -/
theorem reported_of_agreed (hleft : ¬ budget.Spent) :
    (∃ a, runCasePipeline rt c sources budget = .ok a ∧ ReportedFaithfully c sources a) ↔
      ¬ FaultPassing c sources ∨ verdictSources rt c sources ≠ [] := by
  obtain ⟨review, report, entries, hrun, hfiled⟩ := run_of_left rt c sources hleft
  have hcites : CitesFault c sources
      (completedArtifacts rt c sources budget review report entries) ↔ FaultPassing c sources :=
    citesFault_agreed_iff h
  rw [exists_run_iff hrun, ← hcites]
  constructor
  · rintro ⟨-, hclaims, -⟩
    by_contra hnot
    obtain ⟨hcited, hnil⟩ := not_or.mp hnot
    obtain ⟨cl, hcl, hreasons⟩ := available_reasons rt h
    rw [if_pos (not_not.mp hnil)] at hreasons
    refine hclaims (not_not.mp hcited) cl hcl .noFaultAssessmentEvidence List.mem_cons_self ?_
    rw [hreasons]
    exact List.mem_cons_self
  · intro hor
    refine ⟨fun cl hcl htype id _ hcounter => ?_, fun hcited => ?_, fun hcited task htask => ?_⟩
    · -- one side only is cited
      obtain rfl := mem_majorFailure.mp ⟨hcl, htype⟩
      have hnone : (faultVerdict rt (runEvidence rt c sources)).counterEvidenceIds = [] := by
        rw [faultVerdict_eq h]
        split_ifs <;> rfl
      rw [claim, hnone] at hcounter
      cases hcounter
    · exact claims_reasons h (hor.resolve_left (not_not.mpr hcited))
    · obtain ⟨primary, hprimary, rfl⟩ := hfiled.review_eq task htask
      refine review_reasons (fun hopen => ?_) hprimary
      exact hor.resolve_left (not_not.mpr hcited) ((status_of_agree h).mp hopen)

end Agreed

/-- **WHEN A CONTRADICTION IS REPORTED FAITHFULLY**: where the conclusions of the
    fault assessments conflict, exactly when no tool call is left; or the
    conflict is detected, no two texts of one source id say both and no fault
    assessment is cited for what the texts of its source id say; or it is not
    detected, and no fault assessment is cited or some passing text speaks of
    the fault. -/
theorem reported_faithfully_iff (rt : Runtime R) (c : Case) (sources : List Source)
    (budget : RunBudget) :
    (∃ a, runCasePipeline rt c sources budget = .ok a ∧
        (ConclusionsConflict c sources → ReportedFaithfully c sources a)) ↔
      ¬ ConclusionsConflict c sources ∨ budget.Spent ∨
        (FaultsDisagree c sources ∧ ¬ SaysBoth rt c sources ∧ ¬ FaultWorded rt c sources) ∨
        (¬ FaultsDisagree c sources ∧
          (¬ FaultPassing c sources ∨ verdictSources rt c sources ≠ [])) := by
  by_cases hconflict : ConclusionsConflict c sources
  · have himp : ∀ a : CaseArtifacts R, (ConclusionsConflict c sources →
        ReportedFaithfully c sources a) ↔ ReportedFaithfully c sources a :=
      fun a => ⟨fun hreported => hreported hconflict, fun hreported _ => hreported⟩
    simp only [himp]
    rw [or_iff_right (not_not.mpr hconflict)]
    by_cases hspent : budget.Spent
    · refine ⟨fun _ => Or.inl hspent, fun _ => ⟨_, run_of_spent hspent, ?_⟩⟩
      exact {
        apart := fun cl hcl => absurd hcl List.not_mem_nil
        claims := fun _ cl hcl => absurd hcl List.not_mem_nil
        review := fun _ task htask => by cases htask }
    · rw [or_iff_right hspent, faultsDisagree_iff]
      cases hcontra : contradicted (candidatesOf c sources) with
      | true => rw [reported_of_contradicted rt hcontra hspent]; simp
      | false => rw [reported_of_agreed hcontra hspent]; simp
  · refine iff_of_true ?_ (Or.inl hconflict)
    by_cases hspent : budget.Spent
    · exact ⟨_, run_of_spent hspent, fun hc => absurd hc hconflict⟩
    · obtain ⟨review, report, entries, hrun, -⟩ := run_of_left rt c sources hspent
      exact ⟨_, hrun, fun hc => absurd hc hconflict⟩

/-! ## The contradiction of the evaluation set -/

def faultContraA : Source :=
  { Fixtures.faultMajor with
    sourceId := "SRC-FAULT-CONTRA-A"
    url := "https://example.test/synthetic-fault-report-a"
    title := "Synthetic technician fault report A"
    effectiveAt := some 1785542400000000
    contentHash := "sha256:synthetic-fault-a"
    excerpt := some "Assessment A: major failure confirmed." }

def faultContraB : Source :=
  { Fixtures.faultMinor with
    sourceId := "SRC-FAULT-CONTRA-B"
    url := "https://example.test/synthetic-fault-report-b"
    title := "Synthetic technician fault report B"
    effectiveAt := some 1785542400000000
    contentHash := "sha256:synthetic-fault-b"
    excerpt := some "Assessment B: minor issue only, not a major failure." }

def contradictedCase : Case :=
  { Fixtures.hero with
    caseId := "ADV-07B"
    sourceRefs := ["SRC-FAULT-CONTRA-A", "SRC-FAULT-CONTRA-B"] }

/-- The two assessments conclude differently, and the assessment that denies a
    major failure mentions one, so every runtime cites it on both sides. -/
theorem denial_cited_as_support :
    ¬ ∃ rt : Runtime Float, ∃ a,
      runCasePipeline rt contradictedCase [faultContraA, faultContraB] {} = .ok a ∧
        (ConclusionsConflict contradictedCase [faultContraA, faultContraB] →
          ReportedFaithfully contradictedCase [faultContraA, faultContraB] a) := by
  rintro ⟨rt, a, hrun, hfaithful⟩
  have hcontra : contradicted (candidatesOf contradictedCase [faultContraA, faultContraB])
      = true := by decide
  have hmajor : saysMajor rt faultContraB.text = true := by
    rw [saysMajor, rt.lower_ascii _ (by decide)]
    decide
  have hminor : saysMinor rt faultContraB.text = true := by
    rw [saysMinor, rt.lower_ascii _ (by decide)]
    decide
  have hmem : ∀ s ∈ [faultContraA, faultContraB],
      s ∈ candidatesOf contradictedCase [faultContraA, faultContraB] := by
    decide
  have hA := hmem faultContraA List.mem_cons_self
  have hB := hmem faultContraB (List.mem_cons_of_mem _ List.mem_cons_self)
  have hconflict : ConclusionsConflict contradictedCase [faultContraA, faultContraB] :=
    ⟨_, hA, _, hB, rfl, rfl, "major", "minor", rfl, rfl, by decide, by decide, by decide⟩
  have hreported := (reported_of_contradicted rt hcontra (by decide)).mp
    ⟨a, hrun, hfaithful hconflict⟩
  exact hreported.1 ⟨_, hB, _, hB, rfl, hmajor, hminor⟩

end ContradictionReport
