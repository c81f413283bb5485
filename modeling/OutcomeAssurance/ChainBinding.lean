import OutcomeAssurance.ChainVerifier
import OutcomeAssurance.JsonText

/-! # What the last hash of a trace binds

    Under two facts about SHA-256, that a digest is 64 lower-case hexadecimal
    characters and that no two of the strings hashed collide, a link of the
    chain determines the value before it, the payload and the argument hash,
    although the three are joined without a separator. -/

namespace ChainBinding

open CaseModel ChainVerifier HashChain JsonText PyRuntime TraceChain

variable {R : Type} {rt : Runtime R}

/-! ## The hash -/

/-- `hexdigest()` of a SHA-256 hash. -/
def IsDigest (digest : String) : Prop :=
  digest.toList.length = 64 ∧ ∀ c ∈ digest.toList, c ∈ "0123456789abcdef".toList

instance (digest : String) : Decidable (IsDigest digest) :=
  @instDecidableAnd _ _ inferInstance (List.decidableBAll _ _)

/-- No two of the strings have the same digest. -/
def NoCollision (rt : Runtime R) (strings : List String) : Prop :=
  ∀ s ∈ strings, ∀ t ∈ strings, rt.sha256 s = rt.sha256 t → s = t

/-- The strings hashed for the events that follow a value of the chain. -/
def hashedFrom (rt : Runtime R) (chainHash : String) : List TraceEvent → List String
  | [] => []
  | event :: rest =>
      payloadOf event :: (chainHash ++ rt.sha256 (payloadOf event) ++ event.argumentHash.getD "")
        :: hashedFrom rt (link rt chainHash (rt.sha256 (payloadOf event)) event.argumentHash) rest

/-- The strings hashed while a trace that verifies is verified. -/
def hashed (rt : Runtime R) (caseId : String) (events : List TraceEvent) : List String :=
  ("CASE:" ++ caseId) :: hashedFrom rt (seed rt caseId) (bySequence events)

/-! ## The links -/

/-- The value is a digest, and what is hashed for the content after it is one of
    the strings. -/
structure Hashed (rt : Runtime R) (strings : List String) (p : String × Content) : Prop where
  digest : IsDigest p.1
  payload : p.2.payload ∈ strings
  joined : p.1 ++ rt.sha256 p.2.payload ++ p.2.argument ∈ strings

theorem hashed_stamps (hdigest : ∀ s, IsDigest (rt.sha256 s)) {strings : List String}
    {chainHash : String} (hchain : IsDigest chainHash) {events : List TraceEvent}
    (hsub : hashedFrom rt chainHash events ⊆ strings) :
    ∀ p ∈ stamps (contentLink rt) chainHash (events.map contentOf), Hashed rt strings p := by
  induction events generalizing chainHash with
  | nil => exact fun p hp => absurd hp List.not_mem_nil
  | cons event rest ih =>
      intro p hp
      rw [List.map_cons, stamps] at hp
      rw [hashedFrom] at hsub
      obtain rfl | hp := List.mem_cons.mp hp
      · exact ⟨hchain, hsub List.mem_cons_self,
          hsub (List.mem_cons_of_mem _ List.mem_cons_self)⟩
      · refine ih (hdigest _) (fun s hs => hsub ?_) p hp
        exact List.mem_cons_of_mem _ (List.mem_cons_of_mem _ hs)

/-- Two digests in front of a text can be told apart from it. -/
theorem digest_append_inj {d d' s s' : String} (hd : IsDigest d) (hd' : IsDigest d')
    (h : d ++ s = d' ++ s') : d = d' ∧ s = s' := by
  have htext := congrArg String.toList h
  rw [String.toList_append, String.toList_append] at htext
  obtain ⟨hleft, hright⟩ := List.append_inj htext (hd.1.trans hd'.1.symm)
  exact ⟨String.toList_inj.mp hleft, String.toList_inj.mp hright⟩

/-- A digest does not begin like the seed's text. -/
theorem digest_append_ne_seed {d s caseId : String} (hd : IsDigest d) :
    d ++ s ≠ "CASE:" ++ caseId := by
  intro heq
  have htext := congrArg String.toList heq
  rw [String.toList_append, String.toList_append] at htext
  obtain ⟨c, rest, hcons⟩ := List.exists_cons_of_length_pos (hd.1 ▸ by decide : 0 < d.toList.length)
  rw [hcons] at htext
  have hfirst : c = 'C' := (List.cons.inj htext).1
  exact absurd (hd.2 'C' (by rw [hcons, hfirst]; exact List.mem_cons_self)) (by decide)

/-- **THE CHAIN IS BINDING** where no two hashed strings collide. -/
theorem binding (hdigest : ∀ s, IsDigest (rt.sha256 s)) {caseId : String} {strings : List String}
    (hseed : "CASE:" ++ caseId ∈ strings) (hcollision : NoCollision rt strings) :
    Binding (contentLink rt) (seed rt caseId) (Hashed rt strings) where
  inj := by
    rintro ⟨d, x⟩ ⟨d', x'⟩ h h' heq
    have hjoined := hcollision _ h.joined _ h'.joined heq
    simp only [String.append_assoc] at hjoined
    obtain ⟨rfl, hrest⟩ := digest_append_inj h.digest h'.digest hjoined
    obtain ⟨hpayload, hargument⟩ := digest_append_inj (hdigest _) (hdigest _) hrest
    have hsame := hcollision _ h.payload _ h'.payload hpayload
    obtain ⟨payload, argument⟩ := x
    obtain ⟨payload', argument'⟩ := x'
    obtain rfl : payload = payload' := hsame
    obtain rfl : argument = argument' := hargument
    rfl
  fresh := by
    rintro ⟨d, x⟩ h heq
    have hjoined := hcollision _ h.joined _ hseed heq
    rw [String.append_assoc] at hjoined
    exact digest_append_ne_seed h.digest hjoined

/-! ## A short trace -/

def shortCalls : List Call := [
  .record { stage := "VALIDATE", eventType := "EVIDENCE_VALIDATED", evidenceIds := ["EV-1"] },
  .record { stage := "VALIDATE", eventType := "EVIDENCE_REJECTED", evidenceIds := ["EV-2"] }]

/-- The SHA-256 digests of the strings hashed for the short trace. -/
def digests : List (String × String) := [
  ("CASE:CASE-RET-001",
    "ab1c1dfa60c6211f73076b1479d2aaebabae4d035924947006cd1f7219e7c9f8"),
  ("\x7b\"event_type\": \"EVIDENCE_VALIDATED\", \"evidence_ids\": [\"EV-1\"]"
      ++ ", \"sequence\": 1, \"stage\": \"VALIDATE\", \"tool_name\": null\x7d",
    "af72e56fedb4f210fccc0a885f6342a393f685b8293ee1432a3d096d2c3af160"),
  ("ab1c1dfa60c6211f73076b1479d2aaebabae4d035924947006cd1f7219e7c9f8"
      ++ "af72e56fedb4f210fccc0a885f6342a393f685b8293ee1432a3d096d2c3af160",
    "edbca88e080b1ede09dd9ac60d2b5f823d08815157b686d375874ad9c06e584e"),
  ("\x7b\"event_type\": \"EVIDENCE_REJECTED\", \"evidence_ids\": [\"EV-2\"]"
      ++ ", \"sequence\": 2, \"stage\": \"VALIDATE\", \"tool_name\": null\x7d",
    "c87f0ba44838645e888372991de8d36e96992c10909b3e0ffa5c487a9e1c9d38"),
  ("edbca88e080b1ede09dd9ac60d2b5f823d08815157b686d375874ad9c06e584e"
      ++ "c87f0ba44838645e888372991de8d36e96992c10909b3e0ffa5c487a9e1c9d38",
    "74d9081e699b962c393a8956fb5e9871675dcffb35df1a71bc5691169c12b644")]

/-- A runtime with these digests. -/
def tabulated : Runtime Float :=
  { (default : Runtime Float) with
    sha256 := fun s => (digests.lookup s).getD (String.ofList (List.replicate 64 '0')) }

theorem digest_tabulated (s : String) : IsDigest (tabulated.sha256 s) := by
  have htable : ∀ p ∈ digests, IsDigest p.2 := by decide +kernel
  have hdefault : IsDigest (String.ofList (List.replicate 64 '0')) := by decide +kernel
  show IsDigest ((digests.lookup s).getD _)
  cases h : digests.lookup s with
  | none => exact hdefault
  | some digest =>
      obtain ⟨before, after, hsplit, -⟩ := List.lookup_eq_some_iff.mp h
      exact htable (s, digest) (hsplit ▸ List.mem_append_right _ List.mem_cons_self)

theorem noCollision_tabulated : NoCollision tabulated (digests.map Prod.fst) := by
  have hpairs : ∀ s ∈ digests.map Prod.fst, ∀ t ∈ digests.map Prod.fst,
      tabulated.sha256 s = tabulated.sha256 t → s = t := by decide +kernel
  exact hpairs

theorem hashed_short :
    hashed tabulated "CASE-RET-001" (recorded tabulated "CASE-RET-001" shortCalls).events
      = digests.map Prod.fst := by
  rw [hashed, recorded_sorted (List.Perm.refl _)]
  have hfirst : resultPayload (1 : Nat) "VALIDATE" "EVIDENCE_VALIDATED" none ["EV-1"]
      = (digests.map Prod.fst)[1] := by
    rw [resultPayload_eq]
    decide +kernel
  have hsecond : resultPayload (2 : Nat) "VALIDATE" "EVIDENCE_REJECTED" none ["EV-2"]
      = (digests.map Prod.fst)[3] := by
    rw [resultPayload_eq]
    decide +kernel
  simp only [recorded, shortCalls, List.foldl_cons, List.foldl_nil, Call.apply,
    TraceRecorder.record, TraceRecorder.recordWritten, TraceRecorder.start, hashedFrom, payloadOf,
    List.nil_append, List.cons_append, Nat.zero_add, Nat.reduceAdd]
  rw [hfirst, hsecond]
  decide +kernel

/-! ## Two traces with the same last hash -/

/-- Two events agree on everything the chain covers. -/
structure SameEvent (e f : TraceEvent) : Prop where
  sequence : e.sequence = f.sequence
  stage : e.stage = f.stage
  eventType : e.eventType = f.eventType
  toolName : e.toolName = f.toolName
  evidenceIds : e.evidenceIds = f.evidenceIds
  argumentHash : e.argumentHash.getD "" = f.argumentHash.getD ""
  resultHash : e.resultHash = f.resultHash
  stateBeforeHash : e.stateBeforeHash = f.stateBeforeHash
  stateAfterHash : e.stateAfterHash = f.stateAfterHash

theorem sameEvent_of_stored {e f : TraceEvent} (h : storedOf e = storedOf f) : SameEvent e f := by
  simp only [storedOf, contentOf, Stored.mk.injEq, Content.mk.injEq] at h
  obtain ⟨⟨hpayload, hargument⟩, hresult, hbefore, hafter⟩ := h
  obtain ⟨hsequence, hstage, htype, htool, hids⟩ := resultPayload_injective hpayload
  exact ⟨hsequence, hstage, htype, htool, hids, hargument, hresult, hbefore, hafter⟩

/-- **THE LAST HASH BINDS THE WHOLE TRACE**: two traces that verify for a case
    and end in the same hash agree event by event. -/
theorem last_hash_binds (rt : Runtime R) (hdigest : ∀ s, IsDigest (rt.sha256 s)) (caseId : String)
    (xs ys : List TraceEvent) (hxs : xs ≠ []) (hys : ys ≠ [])
    (hcollision : NoCollision rt (hashed rt caseId xs ++ hashed rt caseId ys))
    (hverifiedX : verifyTraceChain rt caseId xs = true)
    (hverifiedY : verifyTraceChain rt caseId ys = true)
    (hlast : (bySequence xs).getLast?.map TraceEvent.stateAfterHash
      = (bySequence ys).getLast?.map TraceEvent.stateAfterHash) :
    List.Forall₂ SameEvent (bySequence xs) (bySequence ys) := by
  rw [verifyTraceChain] at hverifiedX hverifiedY
  have hchain : chain (contentLink rt) (seed rt caseId) ((bySequence xs).map contentOf)
      = chain (contentLink rt) (seed rt caseId) ((bySequence ys).map contentOf) := by
    rw [List.getLast?_eq_some_getLast (bySequence_ne_nil hxs),
      List.getLast?_eq_some_getLast (bySequence_ne_nil hys), Option.map_some, Option.map_some,
      after_getLast _ hverifiedX, after_getLast _ hverifiedY] at hlast
    exact Option.some.inj (Option.some.inj hlast)
  have hseedDigest : IsDigest (seed rt caseId) := hdigest _
  have hcontents := chain_injective
    (binding hdigest (List.mem_append_left _ List.mem_cons_self) hcollision)
    (hashed_stamps hdigest hseedDigest fun s hs =>
      List.mem_append_left _ (List.mem_cons_of_mem _ hs))
    (hashed_stamps hdigest hseedDigest fun s hs =>
      List.mem_append_right _ (List.mem_cons_of_mem _ hs)) hchain
  -- the stored hashes are functions of the contents
  rw [verifyFrom_iff] at hverifiedX hverifiedY
  have hstored : (bySequence xs).map storedOf = (bySequence ys).map storedOf := by
    rw [hverifiedX, hverifiedY, hcontents]
  have hpairs := List.forall₂_map_left_iff.mp (List.forall₂_map_right_iff.mp
    (List.forall₂_eq_eq_eq ▸ hstored : List.Forall₂ Eq _ _))
  exact hpairs.imp fun e f => sameEvent_of_stored

/-- The short trace, handed over in reverse. -/
theorem reversed_trace_agrees :
    List.Forall₂ SameEvent (bySequence (recorded tabulated "CASE-RET-001" shortCalls).events)
      (bySequence (recorded tabulated "CASE-RET-001" shortCalls).events.reverse) := by
  have hreversed := recorded_sorted
    (List.reverse_perm (recorded tabulated "CASE-RET-001" shortCalls).events)
  have hsorted := recorded_sorted
    (List.Perm.refl (recorded tabulated "CASE-RET-001" shortCalls).events)
  have hverified := verify_recorded tabulated "CASE-RET-001" shortCalls
  refine last_hash_binds tabulated digest_tabulated "CASE-RET-001" _ _
    (List.cons_ne_nil _ _) (List.reverse_ne_nil_iff.mpr (List.cons_ne_nil _ _)) ?_ hverified ?_ ?_
  · rw [show hashed tabulated "CASE-RET-001"
        (recorded tabulated "CASE-RET-001" shortCalls).events.reverse = digests.map Prod.fst by
      rw [hashed, hreversed, ← hsorted, ← hashed, hashed_short], hashed_short]
    intro s hs t ht
    exact noCollision_tabulated s (List.mem_append.mp hs |>.elim id id) t
      (List.mem_append.mp ht |>.elim id id)
  · rw [verifyTraceChain, hreversed, ← hsorted]
    exact hverified
  · rw [hreversed, hsorted]

end ChainBinding
