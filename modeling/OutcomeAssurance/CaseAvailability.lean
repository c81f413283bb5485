import OutcomeAssurance.SessionMoments

/-! # Requests for a stored case

    Once a case is stored, a request for it that arrives later is not turned away
    because others are being served: it is found by every statement, its runs
    are persisted, and its review is there to be decided, although runs in
    between delete all rows of the case and write them again. -/

namespace CaseAvailability

open KeyedTable CaseModel PyDict PyRuntime Investigation Pipeline CaseStore CaseClock CaseApi
open CaseQueries CaseDesk CaseComponents CaseIsolation DeskRefinement ReviewModel ReplayRace
open CaseOwnership CaseSessions DeskSessions Sessions Interleaving Runs
open SessionMoments (after)
open ChainVerifier hiding Call

variable {R ι : Type} [DecidableEq ι] {api : Api R} {db : Database R} {d : Desk} {c : String}
  {incoming : ι → Incoming}

/-! ## One session, from the moment its case is stored -/

/-- What a session's statements keep while the case is stored, the others leave
    alone. -/
theorem point_kept {i : ι} {P : Point R → Prop}
    (hstep : ∀ {db d p p'}, Stores api db d → OnFile d c → Points api d p p' → P p →
      P (CaseSessions.step api (incoming i) p db).1)
    {pre : List ι} (hstored : c ∈ caseIds (after api incoming pre).db.tables)
    (hpre : P ((after api incoming pre).pc i)) (post : List ι) :
    P ((after api incoming (pre ++ post)).pc i) := by
  have hrel := related_run api incoming pre
  have on := (hrel.store.represents.stored c).mp hstored
  have hrest : ∀ (post : List ι) (σ : Config ι (Database R) (Point R))
      (τ : Config ι Desk (Stage R)),
      Related (Stores api) (fun _ => Points api) σ τ → OnFile τ.db c → P (σ.pc i) →
      P ((run (CaseSessions.sys api incoming) σ post).pc i) := by
    intro post
    induction post with
    | nil => exact fun _ _ _ _ hp => hp
    | cons j post ih =>
        intro σ τ hrel on hp
        refine ih _ _ ((simulation api incoming).related_fire hrel j)
          ((stepped hrel.store (hrel.point j) (incoming j)).grows c on) ?_
        show P ((fire _ σ j).pc i)
        by_cases hij : i = j
        · subst hij
          rw [fire_pc_self]
          exact hstep hrel.store on (hrel.point i) hp
        · rw [fire_pc_other σ hij]
          exact hp
  rw [after, run_append]
  exact hrest post _ _ hrel on hpre

/-! ## Runs -/

/-- The row of a case that is on file. -/
theorem getCase_onFile (h : Stores api db d) (on : OnFile d c) :
    ∃ row, db.tables.getCase c = some row ∧ row.caseId = c := by
  obtain ⟨file, hget⟩ := on
  obtain ⟨a, ha, -⟩ := (h.represents.filed c file hget).2
  have hrow := (getCase_of_some h.represents hget ha).1
  exact ⟨_, hrow, Table.key_of_get hrow⟩

/-- A run of a stored case is persisted: nobody else has taken its sources. -/
theorem persist_onFile (h : Stores api db d) (on : OnFile d c) {row : Option CaseRow}
    {loaded : Option Nat} (hloaded : Loaded api d c row loaded) (t : Readings) :
    (persist api db c row t).1 = .persisted c := by
  have hstored : c ∈ caseIds db.tables := (h.represents.stored c).mpr on
  obtain ⟨f, hload, -⟩ := (stocked_of_represents h.represents).filed c hstored
  obtain ⟨s₁, hrerun⟩ := DecisionDurability.rerun_persists (stocked_of_represents h.represents)
    hstored hload
  obtain ⟨a, ha, -, -, hpersist⟩ := artifacts_of_fixture hload
  rw [hpersist] at hrerun
  have hfree := (persists_iff h.represents ha).mp ⟨s₁, hrerun⟩
  have hstep := (stepped_persist h hloaded t).point
  rw [refile, ha] at hstep
  simp only [if_neg hfree] at hstep
  generalize (persist api db c row t).1 = p at hstep ⊢
  cases hstep
  rfl

/-- The request runs the case. -/
def runs : Request → Option String
  | .createCase caseId | .runAndPersistCase caseId | .replayCase caseId => some caseId
  | .postReviewDecision _ _ => none

/-- How far a run of the case has come. -/
def Running (c : String) (p : Point R) : Prop :=
  p = .arrived ∨ (∃ row, p = .persisting c row) ∨ p = .persisted c ∨
    ∃ (row : CaseRow) (date : Option Instant), p = .responded (.case row) date ∧ row.caseId = c

theorem running_accept (h : Stores api db d) (on : OnFile d c) {call : Call}
    {principal : Principal} (hauth : requireAuth api.tokens call.authorization = .ok principal)
    (hruns : runs call.request = some c) :
    Running c (CaseSessions.accept api db.tables call) := by
  have hstored : c ∈ caseIds db.tables := (h.represents.stored c).mpr on
  obtain ⟨f, hload, -⟩ := (stocked_of_represents h.represents).filed c hstored
  have hlisted : c ∈ api.registry.listAvailableCaseIds :=
    api.registry.available_iff.mpr ⟨f, hload⟩
  rw [CaseSessions.accept, hauth]
  cases hrequest : call.request with
  | createCase caseId | runAndPersistCase caseId =>
      rw [hrequest] at hruns
      obtain rfl := Option.some.inj hruns
      simp only [hlisted, if_true]
      exact Or.inr (Or.inl ⟨none, rfl⟩)
  | replayCase caseId =>
      rw [hrequest] at hruns
      obtain rfl := Option.some.inj hruns
      obtain ⟨row, hget, -⟩ := getCase_onFile h on
      simp only [hget]
      exact Or.inr (Or.inl ⟨some row, rfl⟩)
  | postReviewDecision reviewId body =>
      rw [hrequest] at hruns
      cases hruns

theorem running_step (h : Stores api db d) (on : OnFile d c) {call : Call} {principal : Principal}
    (hauth : requireAuth api.tokens call.authorization = .ok principal)
    (hruns : runs call.request = some c) {p : Point R} {p' : Stage R} (hp : Points api d p p')
    (hrunning : Running c p) : Running c (CaseSessions.step api (.call call) p db).1 := by
  rcases hrunning with rfl | ⟨row, rfl⟩ | rfl | ⟨row, date, rfl, hrow⟩
  · exact running_accept h on hauth hruns
  · cases hp with
    | running hloaded =>
        right; right; left
        exact persist_onFile h on hloaded call.readings
  · obtain ⟨row, hget, hrow⟩ := getCase_onFile h on
    refine Or.inr (Or.inr (Or.inr ⟨row, (Response.case row).createdAt db.clock, ?_, hrow⟩))
    show CaseSessions.respond db (readBackCase db.tables c) = _
    rw [readBackCase, hget]
    rfl
  · exact Or.inr (Or.inr (Or.inr ⟨row, date, rfl, hrow⟩))

/-! ## Decisions -/

/-- The review of a case that is on file, under its id and with its role. -/
theorem review_onFile (h : Stores api db d) (on : OnFile d c) {a : CaseArtifacts R}
    (ha : artifactsOf api c = some a) {opened : ReviewTask} (hopened : a.review = some opened) :
    ∃ r, db.tables.reviewTasks.get ("REVIEW-" ++ c) = some r ∧ r.caseId = c ∧
      r.assignedRole = opened.assignedRole := by
  obtain ⟨file, hget⟩ := on
  have hunder := (h.represents.filed c file hget).1
  have hfound : ∀ {r : ReviewTask}, file.review = some r →
      db.tables.reviewTasks.get ("REVIEW-" ++ c) = some r ∧ r.caseId = c := by
    intro r hreview
    refine ⟨?_, (hunder r hreview).1⟩
    refine Table.get_eq_some.mpr ⟨?_, (hunder r hreview).2⟩
    exact (DecisionOrigin.mem_reviews h.represents).mpr ⟨c, file, hget, hreview⟩
  rcases h.filed c file a hget ha with hsame | ⟨o, r, req, ho, hr, hok⟩
  · obtain ⟨hstored, hcase⟩ := hfound (hsame.trans hopened)
    exact ⟨opened, hstored, hcase, rfl⟩
  · obtain ⟨hstored, hcase⟩ := hfound hr
    obtain rfl := Option.some.inj (hopened.symm.trans ho)
    refine ⟨r, hstored, hcase, ?_⟩
    rcases decide_ok hok with ⟨-, rfl⟩ | ⟨-, rfl⟩
    · rfl
    · rfl

/-- How far a decision on the review of the case has come. -/
def Deciding (c : String) (p : Point R) : Prop :=
  p = .arrived ∨ (∃ req u, p = .deciding req u ∧ u.1.reviewId = "REVIEW-" ++ c) ∨
    p = .decided ("REVIEW-" ++ c) ∨
    (∃ (row : ReviewTask) (date : Option Instant),
      p = .responded (.decision (.decided row)) date ∧ row.caseId = c) ∨
    ∃ e, p = .responded (.decision (.reviewAlreadyDecided e))

theorem deciding_step (h : Stores api db d) (on : OnFile d c) {a : CaseArtifacts R}
    (ha : artifactsOf api c = some a) {opened : ReviewTask} (hopened : a.review = some opened)
    {call : Call} {principal : Principal} {body : ReviewDecisionRequest}
    (hauth : requireAuth api.tokens call.authorization = .ok principal)
    (hrequest : call.request = .postReviewDecision ("REVIEW-" ++ c) body)
    (hrole : principal.role = opened.assignedRole) {p : Point R} (hdeciding : Deciding c p) :
    Deciding c (CaseSessions.step api (.call call) p db).1 := by
  obtain ⟨r, hget, hcase, hassigned⟩ := review_onFile h on ha hopened
  rcases hdeciding with rfl | ⟨req, u, rfl, hid⟩ | rfl | ⟨row, date, rfl, hrow⟩ | ⟨e, rfl⟩
  · show Deciding c (CaseSessions.accept api db.tables call)
    rw [CaseSessions.accept, hauth, hrequest]
    dsimp only
    have hrole : (decisionRequest principal ("REVIEW-" ++ c) body call.now).principal.role =
        r.assignedRole := hrole.trans hassigned.symm
    obtain ⟨herror, hok⟩ := read_permitted hget hrole
    cases hdecide : (decisionRequest principal ("REVIEW-" ++ c) body call.now).decide r with
    | error e =>
        have hread : DecisionRequest.read _ db.tables.reviewTasks = _ := herror e hdecide
        rw [hread]
        exact Or.inr (Or.inr (Or.inr (Or.inr ⟨e, rfl⟩)))
    | ok changed =>
        have hread : DecisionRequest.read _ db.tables.reviewTasks = _ := hok changed hdecide
        rw [hread]
        exact Or.inr (Or.inl ⟨_, _, rfl, Table.key_of_get hget⟩)
  · right; right; left
    show (commit db req u).1 = _
    rw [commit, hid, hget]
    split <;> rfl
  · refine Or.inr (Or.inr (Or.inr (Or.inl
      ⟨r, (Response.decision (.decided r)).createdAt db.clock, ?_, hcase⟩)))
    show CaseSessions.respond db (readBackReview db.tables ("REVIEW-" ++ c)) = _
    rw [readBackReview, hget]
    rfl
  · exact Or.inr (Or.inr (Or.inr (Or.inl ⟨row, date, rfl, hrow⟩)))
  · exact Or.inr (Or.inr (Or.inr (Or.inr ⟨e, rfl⟩)))

/-! ## Questions -/

/-- The question is about the case. -/
def Concerns (c : String) (q : Query) : Prop := q = .getCase c ∨ selects q = some c

/-- The answer is no error response, and no exception was raised. -/
def Given (x : Answer R) : Prop := x.error = none ∧ x ≠ .serverError

/-- How far a question about the case has come. -/
def Asking (q : Query) (p : Point R) : Prop :=
  p = .arrived ∨ p = .selecting q ∨ (∃ listed rest, p = .listing listed rest) ∨
    ∃ x, p = .shown x ∧ Given x

/-- A run of a request's own budget files a report. -/
theorem report_of_artifacts {a : CaseArtifacts R} (ha : artifactsOf api c = some a) :
    ∃ report, a.guardrailReport = some report := by
  obtain ⟨f, -, hrun, -, -⟩ := fixture_of_artifacts ha
  have hleft : ¬ ({} : RunBudget).Spent := by decide
  obtain ⟨review, report, entries, hcompleted, -⟩ := run_of_left api.runtime f.case f.sources hleft
  obtain rfl := Except.ok.inj (hcompleted.symm.trans hrun)
  exact ⟨report, rfl⟩

theorem asking_ask (h : Stores api db d) (on : OnFile d c) {q : Query} (hq : Concerns c q) :
    Asking q (ask api db q) := by
  obtain ⟨row, hget, -⟩ := getCase_onFile h on
  rcases hq with rfl | hq
  · refine Or.inr (Or.inr (Or.inr ⟨.case (.of db.clock row), ?_, rfl, fun h => by cases h⟩))
    show Point.shown (ifStored db.tables c _) = _
    rw [ifStored, hget]
  · right; left
    rw [ask, hq]
    simp only [hget]

theorem asking_select (h : Stores api db d) (on : OnFile d c) (q : Query)
    (hq : selects q = some c) : Asking q (select api db q) := by
  have hshown : ∀ x : Answer R, Given x → Asking q (.shown x) :=
    fun x hx => Or.inr (Or.inr (Or.inr ⟨x, rfl, hx⟩))
  cases q with
  | getCaseAgentRuns caseId => exact Or.inr (Or.inr (Or.inl ⟨_, _, rfl⟩))
  | getCaseGuardrailReport caseId =>
      obtain rfl := Option.some.inj hq
      -- the report of its last run is stored with the case
      obtain ⟨file, hget⟩ := on
      obtain ⟨a, ha, hshows⟩ := (h.represents.filed _ file hget).2
      obtain ⟨-, -, -, hcase, -⟩ := fixture_of_artifacts ha
      obtain ⟨report, hreport⟩ := report_of_artifacts ha
      have hrows := hshows.report
      rw [hcase] at hrows
      rw [select, hrows, report_read (h.stamped.rows _ file a hget ha), hreport]
      exact hshown _ ⟨rfl, fun h => by cases h⟩
  | getCaseEvidence caseId | getCaseClaims caseId | getCaseAuthority caseId
  | getCaseTrace caseId | verifyCaseTrace caseId => exact hshown _ ⟨rfl, fun h => by cases h⟩
  | caseDemo | listCaseFixtures | listAgentDefinitions | getCase caseId | listReviews
  | getReview id => cases hq

theorem asking_step (h : Stores api db d) (on : OnFile d c) {q : Query} (hq : Concerns c q)
    {p : Point R} {p' : Stage R} (hp : Points api d p p') (hasking : Asking q p) :
    Asking q (CaseSessions.step api (.ask q) p db).1 := by
  rcases hasking with rfl | rfl | ⟨listed, rest, rfl⟩ | ⟨x, rfl, hx⟩
  · exact asking_ask h on hq
  · refine asking_select h on q (hq.resolve_left ?_)
    rintro rfl
    cases hp with
    | asking hselects on => cases hselects
  · cases rest with
    | nil => exact Or.inr (Or.inr (Or.inr ⟨_, rfl, rfl, nofun⟩))
    | cons r rest => exact Or.inr (Or.inr (Or.inl ⟨_, _, rfl⟩))
  · exact Or.inr (Or.inr (Or.inr ⟨x, rfl, hx⟩))

/-! ## All requests -/

/-- Requests for the case that arrive after `σ` are served by `σ'`, if they are
    answered by then. -/
structure Served (api : Api R) (incoming : ι → Incoming) (c : String)
    (σ σ' : Config ι (Database R) (Point R)) : Prop where
  runs : ∀ i call principal response date, σ.pc i = .arrived → incoming i = .call call →
    requireAuth api.tokens call.authorization = .ok principal → runs call.request = some c →
    σ'.pc i = .responded response date →
    ∃ row : CaseRow, response = .case row ∧ row.caseId = c
  /-- A reviewer of the right role decides, or learns that it has been done. -/
  decisions : ∀ i call principal body a opened response date, σ.pc i = .arrived →
    incoming i = .call call → requireAuth api.tokens call.authorization = .ok principal →
    call.request = .postReviewDecision ("REVIEW-" ++ c) body →
    artifactsOf api c = some a → a.review = some opened →
    principal.role = opened.assignedRole → σ'.pc i = .responded response date →
    (∃ row : ReviewTask, response = .decision (.decided row) ∧ row.caseId = c) ∨
      ∃ e, response = .decision (.reviewAlreadyDecided e)
  questions : ∀ i q x, σ.pc i = .arrived → incoming i = .ask q → Concerns c q →
    σ'.pc i = .shown x → Given x

/-- **A STORED CASE IS ALWAYS SERVED**: whatever requests overtake one another
    once the case is stored, none that arrives later is told that the case or
    its review is not there, or fails. -/
theorem stored_served (api : Api R) (incoming : ι → Incoming) (pre post : List ι)
    (hstored : c ∈ caseIds (after api incoming pre).db.tables) :
    Served api incoming c (after api incoming pre) (after api incoming (pre ++ post)) where
  runs := by
    intro i call principal response date harrived hcall hauth hruns hresponded
    have hrunning : Running c ((after api incoming (pre ++ post)).pc i) := by
      refine point_kept (P := Running c) ?_ hstored (Or.inl harrived) post
      intro db d p p' h on hp hrunning
      rw [hcall]
      exact running_step h on hauth hruns hp hrunning
    rw [hresponded] at hrunning
    rcases hrunning with h | ⟨row, h⟩ | h | ⟨row, date', h, hrow⟩
    · cases h
    · cases h
    · cases h
    · cases h
      exact ⟨row, rfl, hrow⟩
  decisions := by
    intro i call principal body a opened response date harrived hcall hauth hrequest ha hopened
      hrole hresponded
    have hdeciding : Deciding c ((after api incoming (pre ++ post)).pc i) := by
      refine point_kept (P := Deciding c) ?_ hstored (Or.inl harrived) post
      intro db d p p' h on hp hdeciding
      rw [hcall]
      exact deciding_step h on ha hopened hauth hrequest hrole hdeciding
    rw [hresponded] at hdeciding
    rcases hdeciding with h | ⟨req, u, h, -⟩ | h | ⟨row, date', h, hrow⟩ | ⟨e, h⟩
    · cases h
    · cases h
    · cases h
    · cases h
      exact Or.inl ⟨row, rfl, hrow⟩
    · cases h
      exact Or.inr ⟨e, rfl⟩
  questions := by
    intro i q x harrived hcall hq hshown
    have hasking : Asking q ((after api incoming (pre ++ post)).pc i) := by
      refine point_kept (P := Asking q) ?_ hstored (Or.inl harrived) post
      intro db d p p' h on hp hasking
      rw [hcall]
      exact asking_step h on hq hp hasking
    rw [hshown] at hasking
    rcases hasking with h | h | ⟨listed, rest, h⟩ | ⟨x', h, hx⟩
    · cases h
    · cases h
    · cases h
    · cases h
      exact hx

/-- The case is created first, and then run and asked for at once. -/
theorem created_case_served :
    let incoming : Fin 3 → Incoming := fun i =>
      if i = 0 then .call (DecisionDurability.demoCall (.createCase "CASE-RET-004"))
      else if i = 1 then .call (DecisionDurability.demoCall (.replayCase "CASE-RET-004"))
      else .ask (.getCaseEvidence "CASE-RET-004")
    "CASE-RET-004" ∈ caseIds (after DecisionDurability.demoApi incoming [0, 0, 0]).db.tables ∧
      Served DecisionDurability.demoApi incoming "CASE-RET-004"
        (after DecisionDurability.demoApi incoming [0, 0, 0])
        (after DecisionDurability.demoApi incoming ([0, 0, 0] ++ [1, 2, 1, 2, 1])) := by
  intro incoming
  have hstored : "CASE-RET-004" ∈
      caseIds (after DecisionDurability.demoApi incoming [0, 0, 0]).db.tables := by
    have halone := congrArg Prod.snd (call_alone DecisionDurability.demoApi Database.empty
      (DecisionDurability.demoCall (.createCase "CASE-RET-004")))
    have hdb : (after DecisionDurability.demoApi incoming [0, 0, 0]).db.tables =
        DecisionDurability.after DecisionDurability.demoApi
          [DecisionDurability.demoCall (.createCase "CASE-RET-004")] :=
      congrArg Database.tables halone
    obtain ⟨a, -, hcase, hpersisted⟩ :=
      DecisionDurability.demo_created DecisionDurability.demo_fixture
    have hmem := mem_caseIds_persisted hpersisted
    rw [hcase] at hmem
    rw [hdb]
    exact hmem
  exact ⟨hstored, stored_served DecisionDurability.demoApi incoming [0, 0, 0] [1, 2, 1, 2, 1]
    hstored⟩

end CaseAvailability
