import OutcomeAssurance.ChainBinding

/-! # Removing events from a recorded trace

    `verify_trace_chain` sees only the list it is given.  An event that is gone
    from in front of another one breaks the chain; events cut off the end leave
    a shorter trace that verifies. -/

namespace ChainRemoval

open CaseModel ChainBinding ChainVerifier HashChain PyRuntime TraceChain

variable {R : Type} {rt : Runtime R}

/-- The value before an event, and what of it goes into the chain. -/
def stampOf (event : TraceEvent) : String × Content :=
  (event.stateBeforeHash.getD "", contentOf event)

/-- In a verified list the stored data and the stamps determine each other. -/
theorem stored_of_verified {chainHash : String} {events : List TraceEvent}
    (h : verifyFrom rt chainHash events = true) :
    (∀ e ∈ events, storedOf e = sealOf rt (stampOf e)) ∧
      events.map stampOf = stamps (contentLink rt) chainHash (events.map contentOf) := by
  rw [verifyFrom_iff] at h
  have hback : ∀ p, (fun s : Stored => (s.before.getD "", s.content)) (sealOf rt p) = p :=
    fun _ => rfl
  have hstamps : events.map stampOf
      = stamps (contentLink rt) chainHash (events.map contentOf) := by
    have hmapped := congrArg (List.map fun s : Stored => (s.before.getD "", s.content)) h
    rw [List.map_map, List.map_map] at hmapped
    exact hmapped.trans (List.map_id'' hback _)
  refine ⟨fun e he => ?_, hstamps⟩
  rw [← hstamps, List.map_map] at h
  exact List.map_inj_left.mp h e he

/-- **WHAT REMOVAL LEAVES**: part of a verified list verifies from the same
    value on exactly when it is a beginning of the list. -/
theorem verify_part {chainHash : String} {events kept : List TraceEvent}
    (h : verifyFrom rt chainHash events = true)
    (hnodup : ((stamps (contentLink rt) chainHash (events.map contentOf)).map Prod.fst).Nodup)
    (hkept : kept.Sublist events) :
    verifyFrom rt chainHash kept = true ↔ kept <+: events := by
  obtain ⟨hstored, hstamps⟩ := stored_of_verified h
  have hcontents : kept.map contentOf = (kept.map stampOf).map Prod.snd := by
    rw [List.map_map]
    rfl
  have hsealed : kept.map storedOf = (kept.map stampOf).map (sealOf rt) := by
    rw [List.map_map]
    exact List.map_inj_left.mpr fun e he => hstored e (hkept.subset he)
  have hdistinct : (events.map stampOf).Nodup := hstamps ▸ hnodup.of_map
  rw [verifyFrom_iff, hsealed, hcontents, (List.map_injective_iff.mpr sealOf_injective).eq_iff,
    stamps_iff_prefix hnodup (hstamps ▸ hkept.map stampOf), ← hstamps,
    prefix_map_iff stampOf hdistinct hkept]

/-- No value comes twice in the chain of a recorded trace. -/
theorem nodup_recorded (hdigest : ∀ s, IsDigest (rt.sha256 s)) {caseId : String}
    {calls : List Call}
    (hcollision : NoCollision rt (hashed rt caseId (recorded rt caseId calls).events)) :
    ((stamps (contentLink rt) (seed rt caseId)
      ((recorded rt caseId calls).events.map contentOf)).map Prod.fst).Nodup := by
  have hsub : hashedFrom rt (seed rt caseId) (recorded rt caseId calls).events
      ⊆ hashed rt caseId (recorded rt caseId calls).events := by
    rw [hashed, recorded_sorted (List.Perm.refl _)]
    exact List.subset_cons_self _ _
  exact nodup_stamps (binding hdigest List.mem_cons_self hcollision)
    (hashed_stamps hdigest (hdigest _) hsub)

/-- What is left of a recorded trace is verified in the order of the trace. -/
theorem kept_sorted {caseId : String} {calls : List Call} {kept : List TraceEvent}
    (hkept : kept.Sublist (recorded rt caseId calls).events) : bySequence kept = kept :=
  bySequence_perm ((recorded_increasing caseId calls).sublist hkept) (List.Perm.refl _)

/-- **WHEN REMOVAL IS DETECTED**: exactly when an event is left that came after
    a removed one, so that the rest is not a beginning of the trace. -/
theorem removal_detected_iff (rt : Runtime R) (hdigest : ∀ s, IsDigest (rt.sha256 s))
    (caseId : String) (calls : List Call)
    (hcollision : NoCollision rt (hashed rt caseId (recorded rt caseId calls).events))
    (kept : List TraceEvent) (hkept : kept.Sublist (recorded rt caseId calls).events) :
    verifyTraceChain rt caseId kept = false ↔ ¬ kept <+: (recorded rt caseId calls).events := by
  have hverified := (recorded_chained rt caseId calls).verified
  rw [recorded_caseId] at hverified
  rw [verifyTraceChain, kept_sorted hkept, ← Bool.not_eq_true,
    verify_part hverified (nodup_recorded hdigest hcollision) hkept]

/-- The short trace without its first event does not verify. -/
theorem first_removed_detected :
    verifyTraceChain tabulated "CASE-RET-001"
      ((recorded tabulated "CASE-RET-001" shortCalls).events.drop 1) = false := by
  refine (removal_detected_iff tabulated digest_tabulated "CASE-RET-001" shortCalls ?_ _
    (List.drop_sublist _ _)).mpr ?_
  · rw [hashed_short]
    exact noCollision_tabulated
  · intro hprefix
    have hfirst := (List.cons_prefix_cons.mp hprefix).1
    exact absurd (congrArg TraceEvent.eventType hfirst) (by decide)

/-- The short trace without its last event verifies, though no two of the strings
    hashed for it collide. -/
theorem last_removed_verifies :
    NoCollision tabulated
        (hashed tabulated "CASE-RET-001" (recorded tabulated "CASE-RET-001" shortCalls).events) ∧
      ((recorded tabulated "CASE-RET-001" shortCalls).events.take 1).Sublist
        (recorded tabulated "CASE-RET-001" shortCalls).events ∧
      (recorded tabulated "CASE-RET-001" shortCalls).events.take 1
        ≠ (recorded tabulated "CASE-RET-001" shortCalls).events ∧
      verifyTraceChain tabulated "CASE-RET-001"
        ((recorded tabulated "CASE-RET-001" shortCalls).events.take 1) ≠ false := by
  refine ⟨hashed_short ▸ noCollision_tabulated, List.take_sublist _ _, fun heq => ?_, ?_⟩
  · exact absurd (congrArg List.length heq) (by decide)
  · rw [show (recorded tabulated "CASE-RET-001" shortCalls).events.take 1
        = (recorded tabulated "CASE-RET-001" (shortCalls.take 1)).events from rfl,
      verify_recorded]
    exact Bool.noConfusion

end ChainRemoval
