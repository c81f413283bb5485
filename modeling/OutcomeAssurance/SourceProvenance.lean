import OutcomeAssurance.CaseIsolation

/-! # The snapshots behind stored evidence

    Evidence is replaced on every run of its case; the snapshot of a source is
    shared by all cases and stays as it was first inserted.  A stored item and
    its snapshot therefore agree only where the source has not changed since. -/

namespace SourceProvenance

open KeyedTable CaseModel PyRuntime Investigation Validation Pipeline CaseStore CaseKeys
open CaseOwnership CaseIsolation

variable {R : Type} {rt : Runtime R} {s s' : Store R} {a : CaseArtifacts R}

/-! ## What a history leaves -/

/-- The sources that the run of a job validates; a run stopped by the budget
    validates none. -/
def validatedSources (j : Job) : List Source :=
  if j.budget.Spent then [] else candidatesOf j.case j.sources

/-- The evidence row of a source. -/
def rowOf (rt : Runtime R) (j : Job) (x : Source) : Evidence R :=
  settledEvidence rt j.case (candidatesOf j.case j.sources) x

/-- The job is the last one for its case. -/
def Current (jobs : List Job) (j : Job) : Prop :=
  ∃ before later, jobs = before ++ j :: later ∧ ∀ k ∈ later, k.case.caseId ≠ j.case.caseId

/-- The first snapshot of a source in the whole history. -/
def firstSnapshot (jobs : List Job) (sourceId : String) : Option SourceSnapshot :=
  (jobs.flatMap fun j => (validatedSources j).map snapshotOf).find? fun snap =>
    snap.sourceId = sourceId

/-- The snapshot has the hash, version and flag of the source. -/
structure Agrees (snap : SourceSnapshot) (x : Source) : Prop where
  contentHash : snap.contentHash = x.contentHash
  version : snap.version = x.version
  allowedForEvidence : snap.allowedForEvidence = x.allowedForEvidence

/-- Every evidence row refers to a snapshot with its hash, and with the version
    and flag of the source that the run which stored the row has validated. -/
def Provenance (jobs : List Job) (s : Store R) : Prop :=
  ∀ e ∈ s.evidence.rows, ∃ j x, Current jobs j ∧ j.case.caseId = e.caseId
    ∧ x ∈ validatedSources j ∧ x.sourceId = e.sourceId
    ∧ ∃ snap ∈ s.sourceSnapshots.rows, snap.sourceId = e.sourceId
      ∧ snap.contentHash = e.contentHash ∧ snap.version = x.version
      ∧ snap.allowedForEvidence = x.allowedForEvidence

/-! ## The last job of a case -/

theorem current_concat {jobs : List Job} {j k : Job} :
    Current (jobs ++ [k]) j ↔ j = k ∨ Current jobs j ∧ k.case.caseId ≠ j.case.caseId := by
  constructor
  · rintro ⟨before, later, hsplit, hlast⟩
    cases later using List.reverseRecOn with
    | nil => exact Or.inl (List.append_inj_right' hsplit rfl |> List.cons.inj |>.1).symm
    | append_singleton later l =>
        right
        rw [← List.cons_append, ← List.append_assoc] at hsplit
        obtain ⟨rfl, hk⟩ := List.append_inj' hsplit rfl
        obtain rfl := (List.cons.inj hk).1
        refine ⟨⟨before, later, rfl, fun l hl => hlast l (List.mem_append_left _ hl)⟩, ?_⟩
        exact hlast k (List.mem_append_right _ List.mem_cons_self)
  · rintro (rfl | ⟨⟨before, later, rfl, hlast⟩, hk⟩)
    · exact ⟨jobs, [], rfl, fun _ h => absurd h List.not_mem_nil⟩
    · refine ⟨before, later ++ [k], by rw [List.append_assoc]; rfl, fun l hl => ?_⟩
      rcases List.mem_append.mp hl with hl | hl
      · exact hlast l hl
      · rw [List.mem_singleton.mp hl]
        exact hk

theorem not_current_nil (j : Job) : ¬ Current [] j := by
  rintro ⟨before, later, hsplit, -⟩
  exact absurd hsplit (by simp)

/-- A case has one last job. -/
theorem current_unique {jobs : List Job} {j k : Job} (hj : Current jobs j) (hk : Current jobs k)
    (hcase : j.case.caseId = k.case.caseId) : j = k := by
  induction jobs using List.reverseRecOn with
  | nil => exact absurd hj (not_current_nil j)
  | append_singleton jobs l ih =>
      rcases current_concat.mp hj with rfl | ⟨hj, hlj⟩
      · rcases current_concat.mp hk with rfl | ⟨-, hlk⟩
        · rfl
        · exact absurd hcase hlk
      · rcases current_concat.mp hk with rfl | ⟨hk, -⟩
        · exact absurd hcase.symm hlj
        · exact ih hj hk

theorem mem_of_current {jobs : List Job} {j : Job} (h : Current jobs j) : j ∈ jobs := by
  obtain ⟨before, later, rfl, -⟩ := h
  exact List.mem_append_right _ List.mem_cons_self

/-! ## What one job adds -/

theorem artifacts_of_run {j : Job} (h : runCasePipeline rt j.case j.sources j.budget = .ok a) :
    a.evidence = (validatedSources j).map (rowOf rt j)
      ∧ a.snapshots = (validatedSources j).map snapshotOf := by
  by_cases hspent : j.budget.Spent
  · rw [run_of_spent hspent] at h
    obtain rfl := Except.ok.inj h
    rw [validatedSources, if_pos hspent]
    exact ⟨rfl, rfl⟩
  · obtain ⟨report, entries, hrun, -⟩ := run_recorded rt j.case j.sources hspent
    rw [hrun] at h
    obtain rfl := Except.ok.inj h
    rw [validatedSources, if_neg hspent]
    exact ⟨rfl, rfl⟩

theorem rowOf_caseId (j : Job) (x : Source) : (rowOf rt j x).caseId = j.case.caseId :=
  settled_caseId j.case _ x

theorem rowOf_sourceId (j : Job) (x : Source) : (rowOf rt j x).sourceId = x.sourceId :=
  settled_sourceId j.case _ x

theorem rowOf_contentHash (j : Job) (x : Source) : (rowOf rt j x).contentHash = x.contentHash := by
  rw [rowOf, settledEvidence, markContradiction]
  split <;> rfl

/-- Evidence that is stored is of different sources. -/
theorem sources_nodup {j : Job} (hrun : runCasePipeline rt j.case j.sources j.budget = .ok a)
    {t t' : Table (Evidence R)} (h : t.insert a.evidence = some t') :
    ((validatedSources j).map Source.sourceId).Nodup := by
  have hunclashed := (Table.insert_isSome.mp ⟨t', h⟩).1
  rw [(artifacts_of_run hrun).1, List.pairwise_map] at hunclashed
  refine List.pairwise_map.mpr (hunclashed.imp fun hne heq => hne ?_)
  show (rowOf rt j _).evidenceId = (rowOf rt j _).evidenceId
  rw [rowOf, rowOf, settled_evidenceId, settled_evidenceId, heq]

/-! ## What a history of jobs leaves -/

/-- The evidence is that of the last job of each case, of one row a source; the
    snapshots are the first ones. -/
structure Left (rt : Runtime R) (jobs : List Job) (s : Store R) : Prop where
  owned : Owned s
  evidence : ∀ e, e ∈ s.evidence.rows ↔
    ∃ j, Current jobs j ∧ ∃ x ∈ validatedSources j, rowOf rt j x = e
  snapshots : ∀ id, s.sourceSnapshots.get id = firstSnapshot jobs id
  sources : ∀ j ∈ jobs, ((validatedSources j).map Source.sourceId).Nodup

theorem left_nil : Left rt [] (Store.empty : Store R) where
  owned := owned_empty
  evidence e := by
    refine iff_of_false List.not_mem_nil ?_
    rintro ⟨j, hj, -⟩
    exact not_current_nil j hj
  snapshots _ := rfl
  sources _ h := absurd h List.not_mem_nil

theorem left_persist {jobs : List Job} {j : Job} (h : Left rt jobs s)
    (hpersist : j.persist rt s = some s') : Left rt (jobs ++ [j]) s' := by
  obtain ⟨a, hrun, hcase, hpersisted, howned⟩ := persisted_of_persist h.owned hpersist
  obtain ⟨hevidence, hsnapshots⟩ := artifacts_of_run hrun
  refine ⟨howned, fun e => ?_, fun id => ?_, fun k hk => ?_⟩
  · rw [Table.rows_of_insert hpersisted.evidence, List.mem_append, mem_kept_evidence h.owned,
      h.evidence, hevidence, hcase, List.mem_map]
    constructor
    · rintro (⟨⟨k, hk, x, hx, rfl⟩, hother⟩ | ⟨x, hx, rfl⟩)
      · rw [rowOf_caseId] at hother
        exact ⟨k, current_concat.mpr (Or.inr ⟨hk, Ne.symm hother⟩), x, hx, rfl⟩
      · exact ⟨j, current_concat.mpr (Or.inl rfl), x, hx, rfl⟩
    · rintro ⟨k, hk, x, hx, rfl⟩
      rcases current_concat.mp hk with rfl | ⟨hk, hother⟩
      · exact Or.inr ⟨x, hx, rfl⟩
      · exact Or.inl ⟨⟨k, hk, x, hx, rfl⟩, by rw [rowOf_caseId]; exact Ne.symm hother⟩
  · rw [get_of_upsertAll hpersisted.sourceSnapshots, h.snapshots, hsnapshots, firstSnapshot,
      firstSnapshot, List.flatMap_append, List.find?_append, List.flatMap_singleton]
    rfl
  · rcases List.mem_append.mp hk with hk | hk
    · exact h.sources k hk
    · rw [List.mem_singleton.mp hk]
      exact sources_nodup hrun hpersisted.evidence

/-- What a sequence of persisted runs leaves. -/
theorem left_persistAll {jobs : List Job} (h : persistAll rt Store.empty jobs = some s) :
    Left rt jobs s := by
  induction jobs using List.reverseRecOn generalizing s with
  | nil =>
      obtain rfl := Option.some.inj h
      exact left_nil
  | append_singleton jobs j ih =>
      rw [persistAll, List.foldlM_append] at h
      obtain ⟨s₁, hbefore, hlast⟩ := Option.bind_eq_some_iff.mp h
      rw [List.foldlM_cons] at hlast
      obtain ⟨s₂, hpersist, hsame⟩ := Option.bind_eq_some_iff.mp hlast
      obtain rfl := Option.some.inj hsame
      exact left_persist (ih hbefore) hpersist

/-! ## When provenance is kept -/

/-- The source of a stored row is validated by the last job of its case only
    once. -/
theorem eq_of_row {jobs : List Job} (h : Left rt jobs s) {j k : Job} (hj : Current jobs j)
    (hk : Current jobs k) {x y : Source} (hx : x ∈ validatedSources j)
    (hy : y ∈ validatedSources k) (hcase : k.case.caseId = (rowOf rt j x).caseId)
    (hsource : y.sourceId = (rowOf rt j x).sourceId) : y = x := by
  rw [rowOf_caseId] at hcase
  rw [rowOf_sourceId] at hsource
  obtain rfl := current_unique hk hj hcase
  exact List.inj_on_of_nodup_map (h.sources k (mem_of_current hk)) hy hx hsource

theorem provenance_of_left {jobs : List Job} (h : Left rt jobs s) :
    Provenance jobs s ↔ ∀ j, Current jobs j → ∀ x ∈ validatedSources j, ∀ snap,
      firstSnapshot jobs x.sourceId = some snap → Agrees snap x := by
  constructor
  · intro hprovenance j hj x hx first hfirst
    obtain ⟨k, y, hk, hcase, hy, hsource, snap, hsnap, hid, hhash, hversion, hflag⟩ :=
      hprovenance (rowOf rt j x) ((h.evidence _).mpr ⟨j, hj, x, hx, rfl⟩)
    obtain rfl := eq_of_row h hj hk hx hy hcase hsource
    have hget := Table.get_key (κ := String) hsnap
    rw [show key snap = y.sourceId from hid.trans hsource.symm, h.snapshots, hfirst] at hget
    obtain rfl := Option.some.inj hget
    exact ⟨hhash.trans (rowOf_contentHash j y), hversion, hflag⟩
  · intro hagrees e he
    obtain ⟨j, hj, x, hx, rfl⟩ := (h.evidence e).mp he
    obtain ⟨snap, hfirst⟩ : ∃ snap, firstSnapshot jobs x.sourceId = some snap := by
      refine Option.isSome_iff_exists.mp (List.find?_isSome.mpr ⟨snapshotOf x, ?_, ?_⟩)
      · exact List.mem_flatMap.mpr ⟨j, mem_of_current hj, List.mem_map_of_mem hx⟩
      · exact decide_eq_true rfl
    obtain ⟨hhash, hversion, hflag⟩ := hagrees j hj x hx snap hfirst
    rw [← h.snapshots] at hfirst
    obtain ⟨hmem, hid⟩ := Table.get_eq_some.mp hfirst
    refine ⟨j, x, hj, (rowOf_caseId j x).symm, hx, (rowOf_sourceId j x).symm, snap, hmem,
      hid.trans (rowOf_sourceId j x).symm, hhash.trans (rowOf_contentHash j x).symm, hversion,
      hflag⟩

/-- **WHEN PROVENANCE IS KEPT**: exactly when each source of a last run still is
    as the history's first run with that source has found it. -/
theorem provenance_iff (rt : Runtime R) (jobs : List Job) (s : Store R)
    (h : persistAll rt Store.empty jobs = some s) :
    Provenance jobs s ↔ ∀ j, Current jobs j → ∀ x ∈ validatedSources j, ∀ snap,
      firstSnapshot jobs x.sourceId = some snap → Agrees snap x :=
  provenance_of_left (left_persistAll h)

/-! ## One case, run again -/

/-- A case that is alone in the store is persisted again. -/
theorem alone_persists {jobs : List Job} (h : Left rt jobs s) {j : Job}
    (halone : ∀ k ∈ jobs, k.case.caseId = j.case.caseId)
    (hdistinct : (j.sources.map Source.sourceId).Nodup) : ∃ s', j.persist rt s = some s' := by
  obtain ⟨a, hrun, hpersist⟩ := persist_eq rt j
  obtain ⟨hshaped, hcase⟩ := shaped_of_run hrun
  rw [hpersist, persist_isSome h.owned hshaped, Table.insert_isSome]
  refine ⟨evidence_unclashed hrun hdistinct, fun e he => ?_⟩
  obtain ⟨hmem, hother⟩ := (mem_kept_evidence h.owned).mp he
  obtain ⟨k, hk, x, -, rfl⟩ := (h.evidence e).mp hmem
  rw [rowOf_caseId, hcase] at hother
  exact absurd (halone k (mem_of_current hk)) hother

theorem persistAll_alone (rt : Runtime R) {jobs : List Job} {c : String}
    (hcase : ∀ k ∈ jobs, k.case.caseId = c)
    (hdistinct : ∀ k ∈ jobs, (k.sources.map Source.sourceId).Nodup) :
    ∃ s, persistAll rt Store.empty jobs = some s := by
  induction jobs using List.reverseRecOn with
  | nil => exact ⟨Store.empty, rfl⟩
  | append_singleton jobs j ih =>
      obtain ⟨s, hs⟩ := ih (fun k hk => hcase k (List.mem_append_left _ hk))
        fun k hk => hdistinct k (List.mem_append_left _ hk)
      have hj : j ∈ jobs ++ [j] := List.mem_append_right _ List.mem_cons_self
      obtain ⟨s', hs'⟩ := alone_persists (left_persistAll hs)
        (fun k hk => (hcase k (List.mem_append_left _ hk)).trans (hcase j hj).symm)
        (hdistinct j hj)
      refine ⟨s', ?_⟩
      rw [persistAll, List.foldlM_append, ← persistAll, hs]
      show Option.bind (j.persist rt s) some = some s'
      rw [hs', Option.bind_some]

/-- The hero case is run twice on the shipped policy. -/
theorem unchanged_policy_kept :
    ∃ s, persistAll (default : Runtime Float) Store.empty [policyJob, policyJob] = some s ∧
      Provenance [policyJob, policyJob] s := by
  obtain ⟨s, hs⟩ := persistAll_alone (default : Runtime Float) (c := policyJob.case.caseId)
    (by decide : ∀ k ∈ [policyJob, policyJob], k.case.caseId = policyJob.case.caseId) (by decide)
  refine ⟨s, hs, (provenance_iff default _ s hs).mpr ?_⟩
  intro j hj x hx snap hfirst
  have hjob : j = policyJob := by
    rcases List.mem_pair.mp (mem_of_current hj) with rfl | rfl <;> rfl
  rw [hjob] at hx
  obtain rfl := List.mem_singleton.mp hx
  obtain rfl := Option.some.inj hfirst
  exact ⟨rfl, rfl, rfl⟩

/-- The retailer has published another version of its policy. -/
def revisedPolicy : Source :=
  { Fixtures.kogan with
    version := "v2"
    contentHash := "sha256:synthetic-kogan-guarantee-v2" }

def revisedJob : Job := ⟨Fixtures.hero, [revisedPolicy], {}⟩

/-- The hero case is run on the policy, and again on its new version: the new
    evidence refers to the snapshot of the old version. -/
theorem revision_not_stored :
    ∃ s, persistAll (default : Runtime Float) Store.empty [policyJob, revisedJob] = some s ∧
      ¬ Provenance [policyJob, revisedJob] s := by
  obtain ⟨s, hs⟩ := persistAll_alone (default : Runtime Float) (c := policyJob.case.caseId)
    (by decide : ∀ k ∈ [policyJob, revisedJob], k.case.caseId = policyJob.case.caseId) (by decide)
  refine ⟨s, hs, fun hprovenance => ?_⟩
  have hlast : Current [policyJob, revisedJob] revisedJob :=
    ⟨[policyJob], [], rfl, fun _ h => absurd h List.not_mem_nil⟩
  have hagrees := (provenance_of_left (left_persistAll hs)).mp hprovenance revisedJob hlast
    revisedPolicy List.mem_cons_self (snapshotOf Fixtures.kogan) rfl
  exact absurd hagrees.version (by decide)

end SourceProvenance
