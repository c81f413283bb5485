import OutcomeAssurance.HashChain
import OutcomeAssurance.TraceChain

/-! # Verifying a trace

    `verify_trace_chain` of `app/services/trace.py` recomputes the hash chain of
    a stored trace.  It returns `True` exactly when what the events store is
    what the chain over their contents stamps on them, and a recorder's own
    events always pass. -/

namespace ChainVerifier

open CaseModel HashChain PyRuntime TraceChain

variable {R : Type} (rt : Runtime R)

/-- `sorted(events, key=lambda e: e.sequence)`. -/
def bySequence (events : List TraceEvent) : List TraceEvent :=
  events.mergeSort fun a b => a.sequence ≤ b.sequence

/-- What the result hash of a stored event is compared with. -/
def payloadOf (event : TraceEvent) : String :=
  resultPayload event.sequence event.stage event.eventType event.toolName event.evidenceIds

/-- The loop of `verify_trace_chain`. -/
def verifyFrom (chainHash : String) : List TraceEvent → Bool
  | [] => true
  | event :: rest =>
      if event.stateBeforeHash ≠ some chainHash then false
      else
        let expectedResultHash := rt.sha256 (payloadOf event)
        if event.resultHash ≠ some expectedResultHash then false
        else
          let expectedStateAfter := link rt chainHash expectedResultHash event.argumentHash
          if event.stateAfterHash ≠ some expectedStateAfter then false
          else verifyFrom expectedStateAfter rest

def seed (caseId : String) : String := rt.sha256 ("CASE:" ++ caseId)

def verifyTraceChain (caseId : String) (events : List TraceEvent) : Bool :=
  verifyFrom rt (seed rt caseId) (bySequence events)

/-! ## The chain behind the loop -/

/-- What of an event goes into the chain. -/
structure Content where
  payload : String
  argument : String

def contentOf (event : TraceEvent) : Content where
  payload := payloadOf event
  argument := event.argumentHash.getD ""

def contentLink (before : String) (x : Content) : String :=
  rt.sha256 (before ++ rt.sha256 x.payload ++ x.argument)

/-- A content and the three hashes stored with it. -/
structure Stored where
  content : Content
  result : Option String
  before : Option String
  after : Option String

def storedOf (event : TraceEvent) : Stored where
  content := contentOf event
  result := event.resultHash
  before := event.stateBeforeHash
  after := event.stateAfterHash

/-- The hashes that belong to a content with the given value before it. -/
def sealOf (p : String × Content) : Stored where
  content := p.2
  result := some (rt.sha256 p.2.payload)
  before := some p.1
  after := some (contentLink rt p.1 p.2)

variable {rt}

theorem sealOf_injective : Function.Injective (sealOf rt) := by
  rintro ⟨d, x⟩ ⟨d', x'⟩ heq
  simp only [sealOf, Stored.mk.injEq, Option.some.injEq] at heq
  exact Prod.ext heq.2.2.1 heq.1

/-- **WHAT IS VERIFIED**: the stored hashes are those the chain stamps on the
    contents, from the given value on. -/
theorem verifyFrom_iff {chainHash : String} {events : List TraceEvent} :
    verifyFrom rt chainHash events = true ↔ events.map storedOf =
      (stamps (contentLink rt) chainHash (events.map contentOf)).map (sealOf rt) := by
  induction events generalizing chainHash with
  | nil => simp [verifyFrom, stamps]
  | cons event rest ih =>
      have hlink : contentLink rt chainHash (contentOf event)
          = link rt chainHash (rt.sha256 (payloadOf event)) event.argumentHash := rfl
      rw [List.map_cons, List.map_cons, stamps, List.map_cons, List.cons.injEq, hlink, ← ih]
      simp only [verifyFrom, storedOf, sealOf, hlink, Stored.mk.injEq, true_and]
      split
      case isTrue h => simp [h]
      case isFalse h =>
          split
          case isTrue h' => simp [contentOf, h']
          case isFalse h' =>
              split
              case isTrue h'' => simp [h'']
              case isFalse h'' => simp_all [contentOf]

/-- The last event of a verified trace stores the last value of the chain. -/
theorem after_getLast {chainHash : String} {events : List TraceEvent} (hne : events ≠ [])
    (h : verifyFrom rt chainHash events = true) :
    (events.getLast hne).stateAfterHash
      = some (chain (contentLink rt) chainHash (events.map contentOf)) := by
  obtain ⟨before, event, rfl⟩ := List.eq_nil_or_concat' events |>.resolve_left hne
  rw [verifyFrom_iff, List.map_append, List.map_append, List.map_singleton, List.map_singleton,
    stamps_concat, List.map_append] at h
  have hlast := List.append_inj_right' h rfl
  simp only [List.map_singleton, List.cons.injEq, and_true] at hlast
  rw [List.getLast_append_singleton, List.map_append, List.map_singleton, chain_concat]
  exact congrArg Stored.after hlast

/-! ## What a recorder keeps passes -/

/-- A recorder's events verify from its seed on, and it holds the last value of
    their chain. -/
structure Chained (rt : Runtime R) (t : TraceRecorder) : Prop where
  verified : verifyFrom rt (seed rt t.caseId) t.events = true
  chainHash_eq : t.chainHash
    = chain (contentLink rt) (seed rt t.caseId) (t.events.map contentOf)

theorem chained_start (caseId : String) : Chained rt (TraceRecorder.start rt caseId) where
  verified := rfl
  chainHash_eq := rfl

theorem Chained.recordWritten {t : TraceRecorder} (h : Chained rt t) (stage eventType : String)
    (toolName : Option String) (evidenceIds : List String) (written : Option String) :
    Chained rt (t.recordWritten rt stage eventType toolName evidenceIds written) where
  verified := by
    have hverified := h.verified
    rw [verifyFrom_iff] at hverified ⊢
    rw [TraceRecorder.recordWritten, List.map_append, hverified, List.map_append,
      List.map_singleton, List.map_singleton, stamps_concat, List.map_append, ← h.chainHash_eq]
    rfl
  chainHash_eq := by
    rw [TraceRecorder.recordWritten, List.map_append, List.map_singleton, chain_concat,
      ← h.chainHash_eq]
    rfl

theorem Chained.record {t : TraceRecorder} (h : Chained rt t) (e : Entry) :
    Chained rt (t.record rt e) :=
  h.recordWritten ..

theorem bySequence_ne_nil {events : List TraceEvent} (h : events ≠ []) :
    bySequence events ≠ [] := by
  intro hnil
  have hperm := List.mergeSort_perm events fun a b => decide (a.sequence ≤ b.sequence)
  exact h (List.nil_perm.mp (hnil ▸ hperm))

/-- In whatever order numbered events are given, they are verified in the order
    of their numbers. -/
theorem bySequence_perm {events given : List TraceEvent}
    (h : events.Pairwise fun a b => a.sequence < b.sequence) (hperm : given.Perm events) :
    bySequence given = events := by
  have hle : ∀ a b : TraceEvent, (decide (a.sequence ≤ b.sequence)
      || decide (b.sequence ≤ a.sequence)) = true := fun a b => by
    rw [Bool.or_eq_true, decide_eq_true_eq, decide_eq_true_eq]
    exact Int.le_total _ _
  have htrans : ∀ a b c : TraceEvent, decide (a.sequence ≤ b.sequence) = true →
      decide (b.sequence ≤ c.sequence) = true → decide (a.sequence ≤ c.sequence) = true := by
    intro a b c hab hbc
    rw [decide_eq_true_eq] at hab hbc ⊢
    exact Int.le_trans hab hbc
  have hsorted : (bySequence given).Perm events := (List.mergeSort_perm ..).trans hperm
  refine hsorted.eq_of_pairwise ?_ (List.pairwise_mergeSort htrans hle given)
    (h.imp fun hlt => decide_eq_true (Int.le_of_lt hlt))
  intro a b ha hb hab hba
  rw [decide_eq_true_eq] at hab hba
  have hnodup : (events.map TraceEvent.sequence).Nodup :=
    List.pairwise_map.mpr (h.imp fun hlt => Int.ne_of_lt hlt)
  exact List.inj_on_of_nodup_map hnodup (hsorted.subset ha) hb (Int.le_antisymm hab hba)

/-- The events of a recorder are in the order of their numbers. -/
theorem increasing_of_numbered {t : TraceRecorder} (h : Numbered t) :
    t.events.Pairwise fun a b => a.sequence < b.sequence := by
  rw [← List.pairwise_map (f := TraceEvent.sequence) (R := fun m n => m < n), h.sequences,
    List.pairwise_map]
  exact List.pairwise_lt_range.imp fun hlt => by omega

/-! ## Calls on a recorder -/

inductive Call where
  | record (e : Entry)
  | transition (current target : CaseStatus)

/-- One call; a transition that raises leaves the recorder as it is. -/
def Call.apply (rt : Runtime R) (t : TraceRecorder) : Call → TraceRecorder
  | .record e => t.record rt e
  | .transition current target =>
      match t.transition rt current target with
      | .ok (_, t') => t'
      | .error _ => t

/-- A recorder after any sequence of calls. -/
def recorded (rt : Runtime R) (caseId : String) (calls : List Call) : TraceRecorder :=
  calls.foldl (Call.apply rt) (TraceRecorder.start rt caseId)

theorem apply_eq (rt : Runtime R) (t : TraceRecorder) (call : Call) :
    Call.apply rt t call = t ∨ ∃ e, Call.apply rt t call = t.record rt e := by
  cases call with
  | record e => exact Or.inr ⟨e, rfl⟩
  | transition current target =>
      by_cases h : target ∈ allowedTransitions current
      · refine Or.inr ⟨transitionEntry current target, ?_⟩
        rw [Call.apply, transition_of_allowed t h]
      · refine Or.inl ?_
        rw [Call.apply, transition_of_illegal t h]

/-- What recording preserves, every sequence of calls preserves. -/
theorem recorded_induction (rt : Runtime R) {P : TraceRecorder → Prop} (caseId : String)
    (hstart : P (TraceRecorder.start rt caseId)) (hrecord : ∀ t e, P t → P (t.record rt e))
    (calls : List Call) : P (recorded rt caseId calls) := by
  rw [recorded]
  induction calls using List.reverseRecOn with
  | nil => exact hstart
  | append_singleton calls call ih =>
      rw [List.foldl_concat]
      obtain hsame | ⟨e, he⟩ := apply_eq rt (calls.foldl (Call.apply rt) _) call
      · rw [hsame]
        exact ih
      · rw [he]
        exact hrecord _ e ih

theorem recorded_numbered (caseId : String) (calls : List Call) :
    Numbered (recorded rt caseId calls) :=
  recorded_induction rt caseId (numbered_start rt caseId) (fun _ e h => h.record e) calls

theorem recorded_chained (rt : Runtime R) (caseId : String) (calls : List Call) :
    Chained rt (recorded rt caseId calls) :=
  recorded_induction rt caseId (chained_start caseId) (fun _ e h => h.record e) calls

theorem recorded_caseId (caseId : String) (calls : List Call) :
    (recorded rt caseId calls).caseId = caseId :=
  recorded_induction rt (P := fun t => t.caseId = caseId) caseId rfl (fun _ _ h => h) calls

theorem recorded_increasing (caseId : String) (calls : List Call) :
    (recorded rt caseId calls).events.Pairwise fun a b => a.sequence < b.sequence :=
  increasing_of_numbered (recorded_numbered caseId calls)

theorem recorded_sorted {caseId : String} {calls : List Call} {given : List TraceEvent}
    (hperm : given.Perm (recorded rt caseId calls).events) :
    bySequence given = (recorded rt caseId calls).events :=
  bySequence_perm (recorded_increasing caseId calls) hperm

/-- **A RECORDED TRACE VERIFIES.** -/
theorem verify_recorded (rt : Runtime R) (caseId : String) (calls : List Call) :
    verifyTraceChain rt caseId (recorded rt caseId calls).events = true := by
  have hchained := (recorded_chained rt caseId calls).verified
  rw [recorded_caseId] at hchained
  rw [verifyTraceChain, recorded_sorted (List.Perm.refl _)]
  exact hchained

end ChainVerifier
