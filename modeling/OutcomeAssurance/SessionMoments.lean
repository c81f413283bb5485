import OutcomeAssurance.ControlChain
import OutcomeAssurance.DeskSessions

/-! # Any moment of any interleaving

    What holds whenever requests to the case API overtake one another: a
    question is answered as of one moment but for the timestamps of agent steps,
    the tables are sound at every moment, and a stored review is whole the
    verdict of one session. -/

namespace SessionMoments

open KeyedTable CaseModel PyDict PyRuntime Investigation Pipeline CaseStore CaseClock CaseIsolation
open CaseApi CaseQueries CaseViews CaseDesk CaseComponents DeskRefinement ReviewModel ReplayRace
open CaseOwnership CaseSessions DeskSessions DecisionOrigin ControlChain Sessions Interleaving Runs
open ChainVerifier hiding Call

variable {R ι : Type} [DecidableEq ι] {api : Api R} {db : Database R} {d : Desk}
  {incoming : ι → Incoming} {sched pre : List ι} {i : ι} {q : Query}

/-- The sessions, after a schedule of their statements. -/
def after (api : Api R) (incoming : ι → Incoming) (sched : List ι) :
    Config ι (Database R) (Point R) :=
  run (CaseSessions.sys api incoming) CaseSessions.opened sched

theorem after_snoc (api : Api R) (incoming : ι → Incoming) (sched : List ι) (j : ι) :
    after api incoming (sched ++ [j]) =
      fire (fun i => CaseSessions.step api (incoming i)) (after api incoming sched) j :=
  run_snoc _ _ _

/-! ## Questions -/

/-- A step of an agent run without its timestamp. -/
def undated (step : ShownStep) : ShownStep := { step with timestamp := 0 }

/-- An agent run of which the steps are selected later than the run: they are the
    same but for their timestamps, and these the tables show at one later
    moment. -/
structure DatedLater (api : Api R) (incoming : ι → Incoming) (q : Query) (pre sched : List ι)
    (loaded shown : ShownAgentRun) : Prop where
  run : { loaded with steps := [] } = { shown with steps := [] }
  steps : loaded.steps.map undated = shown.steps.map undated
  moment : ∃ mid, pre <+: mid ∧ mid <+: sched ∧ ∃ items,
    CaseQueries.answer api (after api incoming mid).db q = .agentRuns items ∧
    ∃ item ∈ items, item.agentRunId = shown.agentRunId ∧ item.steps = shown.steps

theorem DatedLater.mono {loaded shown : ShownAgentRun} {sched' : List ι} (hsched : sched <+: sched')
    (h : DatedLater api incoming q pre sched loaded shown) :
    DatedLater api incoming q pre sched' loaded shown := by
  obtain ⟨mid, hpre, hmid, hitems⟩ := h.moment
  exact ⟨h.run, h.steps, mid, hpre, hmid.trans hsched, hitems⟩

/-- An answer read at one moment, of what the tables answer then. -/
inductive ReadAt (api : Api R) (incoming : ι → Incoming) (q : Query) (pre sched : List ι) :
    Answer R → Answer R → Prop where
  | whole (x : Answer R) : ReadAt api incoming q pre sched x x
  | runs {loaded shown : List ShownAgentRun}
      (h : List.Forall₂ (DatedLater api incoming q pre sched) loaded shown) :
      ReadAt api incoming q pre sched (.agentRuns loaded) (.agentRuns shown)

theorem ReadAt.mono {x y : Answer R} {sched' : List ι} (hsched : sched <+: sched')
    (h : ReadAt api incoming q pre sched x y) : ReadAt api incoming q pre sched' x y := by
  cases h with
  | whole x => exact .whole x
  | runs h => exact .runs (h.imp fun _ _ h => h.mono hsched)

/-- How far a question has come, and when its rows were selected. -/
inductive Reading (api : Api R) (incoming : ι → Incoming) (i : ι) (q : Query) (sched : List ι) :
    Point R → Prop where
  | arrived : Reading api incoming i q sched .arrived
  | selecting : Reading api incoming i q sched (.selecting q)
  | listing {caseId : String} {pre : List ι} {loaded shown : List ShownAgentRun}
      {runs : List LoadedRun} (hq : q = .getCaseAgentRuns caseId)
      (hturn : pre ++ [i] <+: sched) (hpc : (after api incoming pre).pc i = .selecting q)
      (hanswer : CaseQueries.answer api (after api incoming pre).db q =
        .agentRuns (loaded ++ runs.map (.of (after api incoming pre).db.clock
          (after api incoming pre).db.tables.agentSteps.rows)))
      (hcase : ∀ r ∈ runs, r.run.caseId = caseId)
      (hshown : List.Forall₂ (DatedLater api incoming q pre sched) loaded shown) :
      Reading api incoming i q sched (.listing shown runs)
  | shown {pre : List ι} {x : Answer R} (hturn : pre ++ [i] <+: sched)
      (hpc : (after api incoming pre).pc i = .arrived ∨
        (after api incoming pre).pc i = .selecting q)
      (hread : ReadAt api incoming q pre sched
        (CaseQueries.answer api (after api incoming pre).db q) x) :
      Reading api incoming i q sched (.shown x)

/-- The statements of other sessions. -/
theorem Reading.mono {p : Point R} (h : Reading api incoming i q sched p) (j : ι) :
    Reading api incoming i q (sched ++ [j]) p := by
  have hsched : sched <+: sched ++ [j] := List.prefix_append _ _
  cases h with
  | arrived => exact .arrived
  | selecting => exact .selecting
  | listing hq hturn hpc hanswer hcase hshown =>
      exact .listing hq (hturn.trans hsched) hpc hanswer hcase
        (hshown.imp fun _ _ h => h.mono hsched)
  | shown hturn hpc hread => exact .shown (hturn.trans hsched) hpc (hread.mono hsched)

/-- The steps of an agent run, whenever they are selected, are those that the
    pipeline makes. -/
theorem steps_of_stores (h : Stores api db d) {c : String} (on : OnFile d c)
    {a : CaseArtifacts R} (ha : artifactsOf api c = some a) {r : LoadedRun}
    (hr : r.run ∈ a.agentRuns) :
    ∃ file, d.get c = some file ∧ ShownAgentRun.of db.clock db.tables.agentSteps.rows r =
      .of file.readings.columns a.agentSteps r := by
  obtain ⟨file, hget⟩ := on
  have hshows := (getCase_of_some h.represents hget ha).2
  exact ⟨file, hget, steps_read ha hshows (h.stamped.rows c file a hget ha) hr⟩

theorem undated_steps (clock clock' : Clock) (steps : List AgentStep) (r : LoadedRun) :
    (ShownAgentRun.of clock steps r).steps.map undated =
      (ShownAgentRun.of clock' steps r).steps.map undated := by
  rw [ShownAgentRun.of, ShownAgentRun.of, List.map_map, List.map_map]
  rfl

/-- The runs are loaded: the answer is read, but for their steps. -/
theorem reading_select (hpc : (after api incoming sched).pc i = .selecting q) :
    Reading api incoming i q (sched ++ [i]) (select api (after api incoming sched).db q) := by
  have hrel := related_run api incoming sched
  have hp := hrel.point i
  have hasks : (run (CaseSessions.sys api incoming) CaseSessions.opened sched).pc i =
      .selecting q := hpc
  rw [hasks] at hp
  -- a question that selects has found its case, and cases are never taken off
  obtain ⟨caseId, hselects, file, hget⟩ : ∃ caseId, selects q = some caseId ∧
      OnFile (run (DeskSessions.sys api incoming) DeskSessions.opened sched).db caseId := by
    generalize (run (DeskSessions.sys api incoming) DeskSessions.opened sched).pc i = p' at hp
    cases hp with
    | asking hselects on => exact ⟨_, hselects, on⟩
  obtain ⟨a, ha, -⟩ := (hrel.store.represents.filed caseId file hget).2
  have hrow := (getCase_of_some hrel.store.represents hget ha).1
  rcases select_shown hselects hrow with hshown | ⟨runs, hlisting, hanswer⟩
  · have hselect : select api (after api incoming sched).db q = _ := hshown
    rw [hselect]
    exact .shown List.prefix_rfl (Or.inr hpc) (.whole _)
  · cases q with
    | getCaseAgentRuns c =>
        cases hlisting
        refine .listing rfl List.prefix_rfl hpc ?_ ?_ .nil
        · exact hanswer
        · intro r hr
          obtain ⟨run, hrun, rfl⟩ := List.mem_map.mp (List.mem_mergeSort.mp hr)
          exact (mem_rowsOf.mp hrun).2
    | getCaseEvidence c | getCaseClaims c | getCaseAuthority c | getCaseTrace c
    | verifyCaseTrace c | getCaseGuardrailReport c => cases hlisting
    | caseDemo | listCaseFixtures | listAgentDefinitions | getCase c | listReviews
    | getReview c => cases hselects

/-- The steps of a run are selected: they are those of the run that was loaded. -/
theorem dated_later {caseId : String} (hturn : pre ++ [i] <+: sched)
    (hpre : (after api incoming pre).pc i = .selecting (.getCaseAgentRuns caseId))
    {shown : List ShownAgentRun} {r : LoadedRun} {runs : List LoadedRun}
    (hcase : r.run.caseId = caseId)
    (hpc : (after api incoming sched).pc i = .listing shown (r :: runs)) :
    DatedLater api incoming (.getCaseAgentRuns caseId) pre sched
      (.of (after api incoming pre).db.clock (after api incoming pre).db.tables.agentSteps.rows r)
      (.of (after api incoming sched).db.clock
        (after api incoming sched).db.tables.agentSteps.rows r) := by
  have hbefore := related_run api incoming pre
  have hnow := related_run api incoming sched
  change (run (CaseSessions.sys api incoming) CaseSessions.opened pre).pc i = _ at hpre
  change (run (CaseSessions.sys api incoming) CaseSessions.opened sched).pc i = _ at hpc
  -- the case was on file when its runs were loaded, and still is
  have hp := hbefore.point i
  rw [hpre] at hp
  have onBefore : OnFile (run (DeskSessions.sys api incoming) DeskSessions.opened pre).db
      caseId := by
    generalize (run (DeskSessions.sys api incoming) DeskSessions.opened pre).pc i = p' at hp
    cases hp with
    | asking hselects on => exact (Option.some.inj hselects) ▸ on
  have hp := hnow.point i
  rw [hpc] at hp
  obtain ⟨a, ha, onNow, hr⟩ : ∃ a, artifactsOf api caseId = some a ∧
      OnFile (run (DeskSessions.sys api incoming) DeskSessions.opened sched).db caseId ∧
      r.run ∈ a.agentRuns := by
    generalize (run (DeskSessions.sys api incoming) DeskSessions.opened sched).pc i = p' at hp
    cases hp with
    | @listing c a _ _ ha on hruns =>
        have hr := hruns r List.mem_cons_self
        obtain ⟨-, -, -, hname, -⟩ := fixture_of_artifacts ha
        obtain rfl : c = caseId := by
          rw [← hcase, ((shaped_of_artifacts ha).runs.1 r.run hr).1, hname]
        exact ⟨a, ha, on, hr⟩
  obtain ⟨_, -, hloaded⟩ := steps_of_stores hbefore.store onBefore ha hr
  obtain ⟨file, hget, hshown⟩ := steps_of_stores hnow.store onNow ha hr
  -- the steps are the same at both moments, and the dates are those of the later
  refine ⟨rfl, ?_, ?_⟩
  · show (ShownAgentRun.of _ _ r).steps.map undated = (ShownAgentRun.of _ _ r).steps.map undated
    rw [after, after, hloaded, hshown]
    exact undated_steps _ _ _ _
  · refine ⟨sched, (List.prefix_append pre [i]).trans hturn, List.prefix_rfl,
      a.agentRuns.map fun r => .of file.readings.columns a.agentSteps (.of file.readings.columns r),
      ?_, _, List.mem_map_of_mem hr, rfl, ?_⟩
    · rw [after, answer_refines hnow.store.holds, CaseDesk.answer, onFile, hget, ha]
    · rw [after, hshown]
      rfl

theorem reading_step (hasks : incoming i = .ask q)
    (h : Reading api incoming i q sched ((after api incoming sched).pc i)) :
    Reading api incoming i q (sched ++ [i]) ((after api incoming (sched ++ [i])).pc i) := by
  have hstep : (after api incoming (sched ++ [i])).pc i = (CaseSessions.step api (.ask q)
      ((after api incoming sched).pc i) (after api incoming sched).db).1 := by
    rw [after_snoc, fire_pc_self, hasks]
  rw [hstep]
  have hlater : sched <+: sched ++ [i] := List.prefix_append _ _
  generalize hpc : (after api incoming sched).pc i = p at h ⊢
  cases h with
  | arrived =>
      show Reading api incoming i q (sched ++ [i]) (ask api (after api incoming sched).db q)
      rw [ask]
      cases hselects : selects q with
      | none => exact .shown List.prefix_rfl (Or.inl hpc) (.whole _)
      | some caseId =>
          dsimp only
          cases hget : (after api incoming sched).db.tables.getCase caseId with
          | none =>
              have hmissing : answer api (after api incoming sched).db q = .caseNotFound caseId :=
                answer_of_none hselects hget
              rw [← hmissing]
              exact .shown List.prefix_rfl (Or.inl hpc) (.whole _)
          | some row => exact .selecting
  | selecting => exact reading_select hpc
  | @listing caseId pre loaded shown runs hq hturn hpre hanswer hcase hshown =>
      subst hq
      have hshown' := hshown.imp fun _ _ h => DatedLater.mono hlater h
      cases runs with
      | nil =>
          rw [List.map_nil, List.append_nil] at hanswer
          refine .shown (hturn.trans hlater) (Or.inr hpre) ?_
          rw [hanswer]
          exact .runs hshown'
      | cons r runs =>
          have hrun := (dated_later hturn hpre (hcase r List.mem_cons_self) hpc).mono hlater
          refine .listing rfl (hturn.trans hlater) hpre ?_
            (fun x hx => hcase x (List.mem_cons_of_mem _ hx))
            (List.rel_append hshown' (.cons hrun .nil))
          rw [hanswer, List.map_cons, List.append_assoc]
          rfl
  | shown hturn hwas hread => exact .shown (hturn.trans hlater) hwas (hread.mono hlater)

/-- **A QUESTION IS ANSWERED AS OF ONE MOMENT**: although its rows are selected
    one statement after the other, with runs and decisions committed in between,
    the answer is what the tables answer at the moment of one of its first two
    statements; only the steps of agent runs are dated later, run by run. -/
theorem read_atomic (api : Api R) (incoming : ι → Incoming) (sched : List ι) {i : ι} {q : Query}
    {x : Answer R} (hq : incoming i = .ask q)
    (hshown : (after api incoming sched).pc i = .shown x) :
    ∃ pre, pre ++ [i] <+: sched ∧
      ((after api incoming pre).pc i = .arrived ∨ (after api incoming pre).pc i = .selecting q) ∧
      ReadAt api incoming q pre sched (CaseQueries.answer api (after api incoming pre).db q) x := by
  have hreading : Reading api incoming i q sched ((after api incoming sched).pc i) := by
    clear hshown
    -- by the last statement of the schedule: one of the session itself, or of another
    induction sched using List.reverseRecOn with
    | nil => exact .arrived
    | append_singleton sched j ih =>
        by_cases hij : i = j
        · subst hij
          exact reading_step hq ih
        · rw [after_snoc, fire_pc_other _ hij]
          exact ih.mono j
  rw [hshown] at hreading
  cases hreading with
  | shown hturn hpc hread => exact ⟨_, hturn, hpc, hread⟩

/-- Evidence that is asked for while the case is run. -/
theorem evidence_read :
    let incoming : Bool → Incoming := fun asks =>
      if asks then .ask (.getCaseEvidence "CASE-RET-004")
      else .call (DecisionDurability.demoCall (.createCase "CASE-RET-004"))
    ∃ x, (after DecisionDurability.demoApi incoming [false, false, true, false, true]).pc true
        = .shown x ∧
      ∃ pre, pre ++ [true] <+: [false, false, true, false, true] ∧
        ((after DecisionDurability.demoApi incoming pre).pc true = .arrived ∨
          (after DecisionDurability.demoApi incoming pre).pc true =
            .selecting (.getCaseEvidence "CASE-RET-004")) ∧
        ReadAt DecisionDurability.demoApi incoming (.getCaseEvidence "CASE-RET-004") pre
          [false, false, true, false, true]
          (CaseQueries.answer DecisionDurability.demoApi
            (after DecisionDurability.demoApi incoming pre).db
            (.getCaseEvidence "CASE-RET-004")) x := by
  intro incoming
  have hsecond : ∀ (db db' : Database Float) (p : Point Float),
      p = ask DecisionDurability.demoApi db (.getCaseEvidence "CASE-RET-004") →
      ∃ x, (CaseSessions.step DecisionDurability.demoApi
        (.ask (.getCaseEvidence "CASE-RET-004")) p db').1 = .shown x := by
    intro db db' p hp
    rw [ask] at hp
    simp only [selects] at hp
    cases hget : db.tables.getCase "CASE-RET-004" with
    | none =>
        rw [hget] at hp
        subst hp
        exact ⟨_, rfl⟩
    | some row =>
        rw [hget] at hp
        subst hp
        exact ⟨_, rfl⟩
  obtain ⟨x, hx⟩ := hsecond
    (after DecisionDurability.demoApi incoming [false, false]).db
    (after DecisionDurability.demoApi incoming [false, false, true, false]).db _ rfl
  have hshown : (after DecisionDurability.demoApi incoming
      [false, false, true, false, true]).pc true = .shown x := hx
  exact ⟨x, hshown, read_atomic DecisionDurability.demoApi incoming _ rfl hshown⟩

/-! ## Tables -/

/-- A review is on file exactly while its case waits for one. -/
theorem reviewed_of_stores (h : Stores api db d) : Reviewed db.tables := by
  intro row hrow
  have hget : db.tables.getCase row.caseId = some row := Table.get_key hrow
  obtain ⟨file, hfile⟩ := (h.represents.stored row.caseId).mp (mem_caseIds_of_get hget)
  obtain ⟨a, ha, -⟩ := (h.represents.filed row.caseId file hfile).2
  obtain ⟨f, -, hrun, -, -⟩ := fixture_of_artifacts ha
  have hstatus : row.status = "NEEDS_REVIEW" ↔ a.review.isSome = true := by
    obtain rfl := Option.some.inj
      (hget.symm.trans (getCase_of_some h.represents hfile ha).1)
    rw [(restrained_of_run hrun).reviewed]
    show a.terminationStatus.value = _ ↔ _
    cases a.terminationStatus <;> decide
  have hsome : a.review.isSome = file.review.isSome := by
    rcases h.filed row.caseId file a hfile ha with heq | ⟨o, r, req, ho, hr, -⟩
    · rw [heq]
    · rw [ho, hr]
      rfl
  rw [hstatus, hsome, Option.isSome_iff_exists]
  constructor
  · rintro ⟨r, hr, hcase⟩
    obtain ⟨c, file', hfile', hreview⟩ := (mem_reviews h.represents).mp hr
    have hc : r.caseId = c := ((h.represents.filed c file' hfile').1 r hreview).1
    obtain rfl : file = file' := by
      rw [← hc, hcase] at hfile'
      exact Option.some.inj (hfile.symm.trans hfile')
    exact ⟨r, hreview⟩
  · rintro ⟨r, hreview⟩
    exact ⟨r, (mem_reviews h.represents).mpr ⟨_, file, hfile, hreview⟩,
      ((h.represents.filed _ file hfile).1 r hreview).1⟩

/-- What can be relied on in the tables. -/
structure Reliable (s : Store R) : Prop where
  integrity : CaseIntegrity.Sound s
  control : ∀ row ∈ s.cases.rows, Controlled s row

theorem reliable_of_stores (h : Stores api db d) : Reliable db.tables where
  integrity := CaseIntegrity.sound_of_supplied h.supplied
  control _ hrow := controlled_of_current h.supplied.current (reviewed_of_stores h) hrow

/-- **THE TABLES ARE SOUND AT EVERY MOMENT** of every interleaving: each declared
    foreign key resolves, the agent runs of each case are a tree, and no stored
    case authorises a refund or waits for a review that is not there. -/
theorem tables_reliable (api : Api R) (incoming : ι → Incoming) (sched : List ι) :
    Reliable (after api incoming sched).db.tables :=
  reliable_of_stores (related_run api incoming sched).store

/-! ## Verdicts -/

/-- The session's call decides the review, by a principal of its role, and the
    row is its verdict. -/
def VerdictOf (api : Api R) (incoming : ι → Incoming) (i : ι) (opened r : ReviewTask) : Prop :=
  ∃ call principal body, incoming i = .call call ∧
    requireAuth api.tokens call.authorization = .ok principal ∧
    call.request = .postReviewDecision opened.reviewId body ∧
    principal.role = opened.assignedRole ∧ r = filledIn opened principal body call.now

/-- The session has decided the review. -/
def Committed (reviewId : String) : Stage R → Prop
  | .decided id => id = reviewId
  | .responded (.decision (.decided _)) _ => True
  | _ => False

/-- What is on file, or in the mind of a session, for a review. -/
structure Attributed (api : Api R) (incoming : ι → Incoming) (τ : Config ι Desk (Stage R)) :
    Prop where
  tidy : Tidy τ.db
  files : ∀ c file r, τ.db.get c = some file → file.review = some r →
    ∃ a opened, artifactsOf api c = some a ∧ a.review = some opened ∧
      (r = opened ∨ ∃ i, VerdictOf api incoming i opened r ∧ Committed r.reviewId (τ.pc i))
  minds : ∀ i req u, τ.pc i = .deciding req u → u.2 = u.1 ∨
    ∃ a, artifactsOf api u.1.caseId = some a ∧ a.review = some u.1 ∧
      VerdictOf api incoming i u.1 u.2

/-- A session that has decided a review is answered with it, as long as the
    review is on file. -/
theorem committed_step (incoming : Incoming) {r : ReviewTask}
    (hfiled : CaseDesk.reviewOf d r.reviewId = some r) {p : Stage R}
    (h : Committed r.reviewId p) :
    Committed r.reviewId (DeskSessions.step api incoming p d).1 := by
  cases p with
  | decided reviewId =>
      obtain rfl : reviewId = r.reviewId := h
      have hread : Committed r.reviewId
          (DeskSessions.respond d (reviewOnFile d r.reviewId) : Stage R) := by
        rw [DeskSessions.respond, reviewOnFile, hfiled]
        trivial
      cases incoming <;> exact hread
  | responded response date => cases incoming <;> exact h
  | arrived | running c l | deciding req u | ran c | asking q | listing c shown runs | shown x =>
      exact h.elim

/-- What a review is decided to be, when it is looked at. -/
theorem deciding_of_choose {req req' : DecisionRequest} {u : Change}
    (h : (choose d req : Stage R) = .deciding req' u) :
    req' = req ∧ CaseDesk.reviewOf d req.reviewId = some u.1 ∧
      req.principal.role = u.1.assignedRole ∧ req.decide u.1 = .ok u.2 := by
  rw [choose] at h
  cases hr : CaseDesk.reviewOf d req.reviewId with
  | none =>
      rw [hr] at h
      cases h
  | some review =>
      rw [hr] at h
      dsimp only at h
      split at h
      · cases h
      · next hrole =>
          cases hok : req.decide review with
          | error e =>
              rw [hok] at h
              cases h
          | ok changed =>
              rw [hok] at h
              cases h
              exact ⟨rfl, rfl, not_not.mp hrole, hok⟩

/-- Only a decision comes to be in a session's mind. -/
theorem deciding_of_accept {call : Call} {req : DecisionRequest} {u : Change}
    (h : DeskSessions.accept api d call = .deciding req u) :
    ∃ principal reviewId body, requireAuth api.tokens call.authorization = .ok principal ∧
      call.request = .postReviewDecision reviewId body ∧
      (choose d (decisionRequest principal reviewId body call.now) : Stage R)
        = .deciding req u := by
  rw [DeskSessions.accept] at h
  cases hauth : requireAuth api.tokens call.authorization with
  | error e =>
      rw [hauth] at h
      cases h
  | ok principal =>
      rw [hauth] at h
      cases hrequest : call.request with
      | createCase c | runAndPersistCase c =>
          rw [hrequest] at h
          dsimp only at h
          split at h <;> cases h
      | replayCase c =>
          rw [hrequest] at h
          dsimp only at h
          split at h <;> cases h
      | postReviewDecision reviewId body =>
          rw [hrequest] at h
          exact ⟨principal, reviewId, body, rfl, rfl, h⟩

theorem deciding_of_step {inc : Incoming} {p : Stage R} {req : DecisionRequest} {u : Change}
    (h : (DeskSessions.step api inc p d).1 = .deciding req u) :
    ∃ call, inc = .call call ∧ DeskSessions.accept api d call = .deciding req u := by
  cases p with
  | arrived =>
      cases inc with
      | call c => exact ⟨c, rfl, h⟩
      | ask q =>
          have h : look api d q = .deciding req u := h
          rw [look] at h
          split at h
          · cases h
          · split at h <;> cases h
  | running caseId loaded =>
      have h : (refile api d caseId loaded inc.readings).1 = .deciding req u := by
        cases inc <;> exact h
      rw [refile] at h
      cases ha : artifactsOf api caseId with
      | none =>
          rw [ha] at h
          cases h
      | some a =>
          rw [ha] at h
          dsimp only at h
          split at h <;> cases h
  | deciding req' u' =>
      have h : (settle d req' u' : Stage R × Desk).1 = .deciding req u := by
        cases inc <;> exact h
      rw [settle] at h
      split at h
      · cases h
      · cases hr : CaseDesk.reviewOf d u'.1.reviewId with
        | none =>
            rw [hr] at h
            cases h
        | some r =>
            rw [hr] at h
            cases h
  | asking q =>
      have h : consult api d q = .deciding req u := by
        cases inc <;> exact h
      cases q with
      | getCaseAgentRuns c =>
          rw [consult] at h
          split at h <;> cases h
      | _ => cases h
  | listing c shown runs => cases runs <;> cases inc <;> cases h
  | ran c | decided id | responded r date | shown x => cases inc <;> cases h

/-- What a step does to the files. -/
inductive Filed (api : Api R) (inc : Incoming) (p : Stage R) (d : Desk) : Prop where
  | kept (same : (DeskSessions.step api inc p d).2 = d)
  | ran (c : String) (a : CaseArtifacts R) (version : Nat) (artifacts : artifactsOf api c = some a)
      (moved : (DeskSessions.step api inc p d).2 =
        (d.pop c).set c ⟨version, a.review, inc.readings⟩)
  | decided (req : DecisionRequest) (u : Change) (r : ReviewTask) (mind : p = .deciding req u)
      (changed : u.2 ≠ u.1) (found : CaseDesk.reviewOf d u.1.reviewId = some r)
      (result : DeskSessions.step api inc p d = (.decided u.1.reviewId,
        d.set r.caseId ⟨versionOf d r.caseId, some u.2, readingsOf d r.caseId⟩))

theorem filed_of_step (api : Api R) (inc : Incoming) (p : Stage R) (d : Desk) :
    Filed api inc p d := by
  cases p with
  | arrived => cases inc <;> exact .kept rfl
  | running caseId loaded =>
      have hstep : DeskSessions.step api inc (.running caseId loaded) d =
          refile api d caseId loaded inc.readings := by
        cases inc <;> rfl
      rw [refile] at hstep
      cases ha : artifactsOf api caseId with
      | none =>
          rw [ha] at hstep
          exact .kept (congrArg Prod.snd hstep)
      | some a =>
          rw [ha] at hstep
          dsimp only at hstep
          split at hstep
          · exact .kept (congrArg Prod.snd hstep)
          · exact .ran caseId a _ ha (congrArg Prod.snd hstep)
  | deciding req u =>
      have hstep : DeskSessions.step api inc (.deciding req u) d = settle d req u := by
        cases inc <;> rfl
      rw [settle] at hstep
      split at hstep
      · exact .kept (congrArg Prod.snd hstep)
      · next hchanged =>
          cases hr : CaseDesk.reviewOf d u.1.reviewId with
          | none =>
              rw [hr] at hstep
              exact .kept (congrArg Prod.snd hstep)
          | some r =>
              rw [hr] at hstep
              exact .decided req u r rfl hchanged hr hstep
  | listing c shown runs => cases runs <;> cases inc <;> exact .kept rfl
  | ran c | decided id | asking q | responded r date | shown x => cases inc <;> exact .kept rfl

omit [DecidableEq ι] in
/-- A review that is looked at is decided anew only while it is as it was
    opened. -/
theorem minds_of_accept {τ : Config ι Desk (Stage R)} (h : Attributed api incoming τ) {i : ι}
    {call : Call} (hcall : incoming i = .call call) {req : DecisionRequest} {u : Change}
    (haccept : DeskSessions.accept api τ.db call = .deciding req u) :
    u.2 = u.1 ∨ ∃ a, artifactsOf api u.1.caseId = some a ∧ a.review = some u.1 ∧
      VerdictOf api incoming i u.1 u.2 := by
  obtain ⟨principal, reviewId, body, hauth, hrequest, hchoose⟩ := deciding_of_accept haccept
  obtain ⟨-, hfound, hrole, hok⟩ := deciding_of_choose hchoose
  obtain ⟨hname, file, hfile, hreview⟩ := filed_of_reviewOf h.tidy hfound
  obtain ⟨a, opened, ha, hopened, hwas⟩ := h.files _ file u.1 hfile hreview
  -- a review as it was opened is decided by this session, whole
  rcases hwas with hsame | ⟨j, ⟨_, _, _, -, -, -, -, hverdict⟩, -⟩
  · have hopened : a.review = some u.1 := hsame ▸ hopened
    refine Or.inr ⟨a, ha, hopened, call, principal, body, hcall, hauth, ?_, hrole, ?_⟩
    · rw [hrequest, ((h.tidy _ file hfile) u.1 hreview).2]
      exact congrArg (Request.postReviewDecision · body) hname
    · exact decide_opened (blank_of_artifacts ha hopened).status hok
  · -- a verdict is decided no more
    left
    rcases decide_ok hok with ⟨-, hsame⟩ | ⟨hpending, -⟩
    · exact hsame
    · rw [hverdict] at hpending
      cases hpending

/-- **EACH STEP** leaves on file what sessions have decided, whole. -/
theorem attributed_fire {τ : Config ι Desk (Stage R)} (h : Attributed api incoming τ) (i : ι) :
    Attributed api incoming (DeskSessions.sys api incoming τ i) := by
  have hself : (DeskSessions.sys api incoming τ i).pc i =
      (DeskSessions.step api (incoming i) (τ.pc i) τ.db).1 := fire_pc_self τ i
  have hdb : (DeskSessions.sys api incoming τ i).db =
      (DeskSessions.step api (incoming i) (τ.pc i) τ.db).2 := rfl
  have hother : ∀ j, j ≠ i → (DeskSessions.sys api incoming τ i).pc j = τ.pc j :=
    fun j hji => fire_pc_other τ hji
  -- a decided session stays so, for as long as its verdict is on file
  have hcommitted : ∀ c file r, τ.db.get c = some file → file.review = some r →
      ∀ j, Committed r.reviewId (τ.pc j) →
        Committed r.reviewId ((DeskSessions.sys api incoming τ i).pc j) := by
    intro c file r hget hreview j hj
    by_cases hji : j = i
    · subst hji
      rw [hself]
      refine committed_step _ ?_ hj
      rw [(h.tidy c file hget r hreview).2]
      exact (reviewOf_eq_some h.tidy).mpr ⟨file, hget, hreview⟩
    · rw [hother j hji]
      exact hj
  have hkept : ∀ c file r, τ.db.get c = some file → file.review = some r →
      ∃ a opened, artifactsOf api c = some a ∧ a.review = some opened ∧
        (r = opened ∨ ∃ j, VerdictOf api incoming j opened r ∧
          Committed r.reviewId ((DeskSessions.sys api incoming τ i).pc j)) := by
    intro c file r hget hreview
    obtain ⟨a, opened, ha, hopened, hr⟩ := h.files c file r hget hreview
    exact ⟨a, opened, ha, hopened,
      hr.imp id fun ⟨j, hv, hj⟩ => ⟨j, hv, hcommitted c file r hget hreview j hj⟩⟩
  -- the others have in mind what they had
  have hminds : ∀ j req u, (DeskSessions.sys api incoming τ i).pc j = .deciding req u →
      u.2 = u.1 ∨ ∃ a, artifactsOf api u.1.caseId = some a ∧ a.review = some u.1 ∧
        VerdictOf api incoming j u.1 u.2 := by
    intro j req u hj
    by_cases hji : j = i
    · subst hji
      rw [hself] at hj
      obtain ⟨call, hcall, haccept⟩ := deciding_of_step hj
      exact minds_of_accept h hcall haccept
    · rw [hother j hji] at hj
      exact h.minds j req u hj
  cases filed_of_step api (incoming i) (τ.pc i) τ.db with
  | kept same =>
      rw [← hdb] at same
      exact ⟨same ▸ h.tidy, same ▸ hkept, hminds⟩
  | ran c a version ha moved =>
      rw [← hdb] at moved
      have hget : ∀ c' file, (DeskSessions.sys api incoming τ i).db.get c' = some file →
          c' = c ∧ file = ⟨version, a.review, (incoming i).readings⟩ ∨
            τ.db.get c' = some file := by
        intro c' file hfile
        rw [moved, Dict.get_set, Dict.get_pop] at hfile
        split at hfile
        · next hc => exact Or.inl ⟨hc, (Option.some.inj hfile).symm⟩
        · exact Or.inr hfile
      refine ⟨fun c' file hfile => ?_, fun c' file r hfile hreview => ?_, hminds⟩
      · rcases hget c' file hfile with ⟨rfl, rfl⟩ | hold
        · exact filedUnder_of_artifacts ha
        · exact h.tidy c' file hold
      · rcases hget c' file hfile with ⟨rfl, rfl⟩ | hold
        · exact ⟨a, r, ha, hreview, Or.inl rfl⟩
        · exact hkept c' file r hold hreview
  | decided req u r mind changed found result =>
      have hset := congrArg Prod.snd result
      rw [← hdb] at hset
      obtain ⟨a, ha, hopened, hverdict⟩ := (h.minds i req u mind).resolve_left changed
      obtain ⟨hname, -⟩ := filed_of_reviewOf h.tidy found
      have hunder := filedUnder_of_artifacts ha u.1 hopened
      -- what is written over is the review of the same case
      have hcase : r.caseId = u.1.caseId :=
        (String.append_right_inj _).mp (hname.symm.trans hunder.2)
      have hget : ∀ c' file, (DeskSessions.sys api incoming τ i).db.get c' = some file →
          c' = u.1.caseId ∧ file.review = some u.2 ∨ τ.db.get c' = some file := by
        intro c' file hfile
        rw [hset, Dict.get_set, hcase] at hfile
        split at hfile
        · next hc => exact Or.inl ⟨hc, (Option.some.inj hfile) ▸ rfl⟩
        · exact Or.inr hfile
      have hdecided : Committed u.2.reviewId ((DeskSessions.sys api incoming τ i).pc i) := by
        obtain ⟨_, _, _, -, -, -, -, hfilled⟩ := hverdict
        rw [hself, result, hfilled]
        rfl
      refine ⟨fun c' file hfile => ?_, fun c' file r' hfile hreview => ?_, hminds⟩
      · rcases hget c' file hfile with ⟨rfl, hfiled⟩ | hold
        · intro r' hr'
          obtain rfl := Option.some.inj (hfiled.symm.trans hr')
          obtain ⟨_, _, _, -, -, -, -, hfilled⟩ := hverdict
          rw [hfilled]
          exact hunder
        · exact h.tidy c' file hold
      · rcases hget c' file hfile with ⟨rfl, hfiled⟩ | hold
        · obtain rfl := Option.some.inj (hfiled.symm.trans hreview)
          exact ⟨a, u.1, ha, hopened, Or.inr ⟨i, hverdict, hdecided⟩⟩
        · exact hkept c' file r' hold hreview

theorem attributed_run (api : Api R) (incoming : ι → Incoming) (sched : List ι) :
    Attributed api incoming (run (DeskSessions.sys api incoming) DeskSessions.opened sched) := by
  have hopened : Attributed api incoming (DeskSessions.opened : Config ι Desk (Stage R)) :=
    ⟨fun c file hget => (by cases hget), fun c file r hget => (by cases hget),
      fun i req u hpc => (by cases hpc)⟩
  have hstep : ∀ τ i, Attributed api incoming τ →
      Attributed api incoming (DeskSessions.sys api incoming τ i) :=
    fun _ i h => attributed_fire h i
  exact run_invariant hstep hopened sched

/-- A stored review is as its case's run has opened it, or it is whole the
    verdict of one session that has committed. -/
def Whole (api : Api R) (incoming : ι → Incoming) (σ : Config ι (Database R) (Point R)) : Prop :=
  ∀ r ∈ σ.db.tables.reviewTasks.rows, ∃ a opened, artifactsOf api r.caseId = some a ∧
    a.review = some opened ∧ (r = opened ∨ ∃ i, VerdictOf api incoming i opened r ∧
      (σ.pc i = .decided r.reviewId ∨
        ∃ row date, σ.pc i = .responded (.decision (.decided row)) date))

/-- **NO TWO VERDICTS ARE MIXED**: however decisions on one review, and runs that
    open it anew, overtake one another, each stored review is as it was opened,
    or carries the verdict of one session in every column. -/
theorem verdicts_whole (api : Api R) (incoming : ι → Incoming) (sched : List ι) :
    Whole api incoming (after api incoming sched) := by
  intro r hr
  have hrel := related_run api incoming sched
  have hattributed := attributed_run api incoming sched
  obtain ⟨c, file, hfile, hreview⟩ := (mem_reviews hrel.store.represents).mp hr
  obtain ⟨a, opened, ha, hopened, hwas⟩ := hattributed.files c file r hfile hreview
  have hcase : r.caseId = c := (hattributed.tidy c file hfile r hreview).1
  refine ⟨a, opened, hcase ▸ ha, hopened, hwas.imp id fun ⟨i, hverdict, hcommitted⟩ => ?_⟩
  refine ⟨i, hverdict, ?_⟩
  have hp := hrel.point i
  rw [after]
  generalize (run (DeskSessions.sys api incoming) DeskSessions.opened sched).pc i = p'
    at hp hcommitted
  generalize (run (CaseSessions.sys api incoming) CaseSessions.opened sched).pc i = p at hp ⊢
  cases hp with
  | decided =>
      obtain rfl := hcommitted
      exact Or.inl rfl
  | @responded response date =>
      cases response with
      | decision verdict =>
          cases verdict with
          | decided row => exact Or.inr ⟨row, date, rfl⟩
          | reviewNotFound | roleNotPermitted | reviewAlreadyDecided | staleData =>
              exact hcommitted.elim
      | unauthorized | caseFixtureNotFound | caseNotFound | case | serverError =>
          exact hcommitted.elim
  | arrived | running | deciding | ran | asking | listing | shown => exact hcommitted.elim

end SessionMoments
