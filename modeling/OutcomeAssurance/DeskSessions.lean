import OutcomeAssurance.CaseIntegrity
import OutcomeAssurance.CaseSessions
import OutcomeAssurance.DecisionOrigin
import OutcomeAssurance.Sessions

/-! # The case API under concurrency is a desk

    What requests that overtake one another come to, on the files of a desk.  A
    question looks for its case, and is answered when the file is opened again;
    the steps of agent runs are dated run by run.  A run is filed under the
    version after the one it has loaded.  A decision is put on file whole,
    whatever is on file by then.  And what a call is answered with is looked up
    once more when it has committed. -/

namespace DeskSessions

open KeyedTable CaseModel PyDict PyRuntime Investigation Pipeline CaseStore CaseClock CaseIsolation
open CaseApi CaseQueries CaseViews CaseDesk CaseComponents DeskRefinement ReviewModel ReplayRace
open CaseSessions Sessions CaseOwnership Interleaving Runs
open DecisionDurability (Stocked)
open CaseIntegrity (Supplied supplied_empty supplied_persisted)
open ChainVerifier hiding Call

variable {R : Type}

/-! ## Stages -/

/-- How far a request has come. -/
inductive Stage (R : Type) where
  | arrived
  | running (caseId : String) (loaded : Option Nat)
  | deciding (req : DecisionRequest) (u : Change)
  | ran (caseId : String)
  | decided (reviewId : String)
  /-- The case is on file. -/
  | asking (q : Query)
  /-- The runs are dated, the steps of the last of them are not. -/
  | listing (caseId : String) (shown : List ShownAgentRun) (runs : List LoadedRun)
  | responded (r : Response) (createdAt : Option Instant := none)
  | shown (a : Answer R)

/-- A review is looked at, and decided in mind. -/
def choose (d : Desk) (req : DecisionRequest) : Stage R :=
  match CaseDesk.reviewOf d req.reviewId with
  | none => .responded (.decision (.reviewNotFound req.reviewId))
  | some review =>
      if req.principal.role ≠ review.assignedRole then
        .responded (.decision (.roleNotPermitted req.principal.role review.assignedRole))
      else
        match req.decide review with
        | .error e => .responded (.decision (.reviewAlreadyDecided e))
        | .ok changed => .deciding req (review, changed)

def accept (api : Api R) (d : Desk) (call : Call) : Stage R :=
  match requireAuth api.tokens call.authorization with
  | .error e => .responded (.unauthorized e)
  | .ok principal =>
      match call.request with
      | .createCase caseId | .runAndPersistCase caseId =>
          if caseId ∈ api.registry.listAvailableCaseIds then .running caseId none
          else .responded (.caseFixtureNotFound caseId)
      | .replayCase caseId =>
          match d.get caseId with
          | none => .responded (.caseNotFound caseId)
          | some file => .running caseId (some file.version)
      | .postReviewDecision reviewId body =>
          choose d (decisionRequest principal reviewId body call.now)

/-- A run is filed, under the version after the one that was loaded, or else
    after the one on file. -/
def refile (api : Api R) (d : Desk) (caseId : String) (loaded : Option Nat) (t : Readings) :
    Stage R × Desk :=
  match artifactsOf api caseId with
  | none => (.responded .serverError, d)
  | some a =>
      if ∃ e ∈ a.evidence, e.sourceId ∈ sourcesElsewhere api d caseId then
        (.responded .serverError, d)
      else
        (.ran caseId,
          (d.pop caseId).set caseId ⟨loaded.getD (versionOf d caseId) + 1, a.review, t⟩)

/-- A decision is put on file. -/
def settle (d : Desk) (req : DecisionRequest) (u : Change) : Stage R × Desk :=
  if u.2 = u.1 then (.decided u.1.reviewId, d)
  else
    match CaseDesk.reviewOf d u.1.reviewId with
    | none => (.responded (.decision (.staleData req.reviewId)), d)
    | some r =>
        (.decided u.1.reviewId,
          d.set r.caseId ⟨versionOf d r.caseId, some u.2, readingsOf d r.caseId⟩)

/-- The row a run is answered with. -/
def caseOnFile (api : Api R) (d : Desk) (caseId : String) : Response :=
  match d.get caseId, artifactsOf api caseId with
  | some file, some a => .case (caseRow a file.version)
  | _, _ => .serverError

def reviewOnFile (d : Desk) (reviewId : String) : Response :=
  match CaseDesk.reviewOf d reviewId with
  | none => .serverError
  | some r => .decision (.decided r)

/-- The response with the date of what it shows. -/
def respond (d : Desk) (r : Response) : Stage R := .responded r (createdAt d r)

/-- A question looks for its case. -/
def look (api : Api R) (d : Desk) (q : Query) : Stage R :=
  match selects q with
  | none => .shown (CaseDesk.answer api d q)
  | some caseId =>
      match d.get caseId with
      | none => .shown (.caseNotFound caseId)
      | some _ => .asking q

/-- The file is opened again. -/
def consult (api : Api R) (d : Desk) : Query → Stage R
  | .getCaseAgentRuns caseId =>
      match d.get caseId, artifactsOf api caseId with
      | some file, some a =>
          .listing caseId [] (a.agentRuns.map (.of file.readings.columns))
      | _, _ => .shown (.caseNotFound caseId)
  | q => .shown (CaseDesk.answer api d q)

/-- The steps of an agent run are dated. -/
def withSteps (api : Api R) (d : Desk) (caseId : String) (r : LoadedRun) : ShownAgentRun :=
  match artifactsOf api caseId with
  | none => .of (readingsOf d caseId).columns [] r
  | some a => .of (readingsOf d caseId).columns a.agentSteps r

/-- The next stage of a request. -/
def step (api : Api R) : Incoming → Stage R → Desk → Stage R × Desk
  | .call c, .arrived, d => (accept api d c, d)
  | .ask q, .arrived, d => (look api d q, d)
  | i, .running caseId loaded, d => refile api d caseId loaded i.readings
  | _, .deciding req u, d => settle d req u
  | _, .ran caseId, d => (respond d (caseOnFile api d caseId), d)
  | _, .decided reviewId, d => (respond d (reviewOnFile d reviewId), d)
  | _, .asking q, d => (consult api d q, d)
  | _, .listing _ shown [], d => (.shown (.agentRuns shown), d)
  | _, .listing caseId shown (r :: runs), d =>
      (.listing caseId (shown ++ [withSteps api d caseId r]) runs, d)
  | _, .responded r createdAt, d => (.responded r createdAt, d)
  | _, .shown a, d => (.shown a, d)

section Systems

variable {ι : Type} [DecidableEq ι]

def sys (api : Api R) (incoming : ι → Incoming) :
    Config ι Desk (Stage R) → ι → Config ι Desk (Stage R) :=
  fire fun i => step api (incoming i)

/-- Every request before its first stage, and no case on file. -/
def opened : Config ι Desk (Stage R) := ⟨∅, fun _ => .arrived⟩

end Systems

variable {api : Api R} {s s' : Store R} {db : Database R} {d : Desk} {a : CaseArtifacts R}
  {caseId : String}

/-! ## The store as a session sees it -/

theorem stocked_of_represents (h : Represents api s d) : Stocked api s where
  owned := h.owned
  filed := by
    intro c hc
    obtain ⟨file, hget⟩ := (h.stored c).mp hc
    obtain ⟨a, ha, -⟩ := (h.filed c file hget).2
    obtain ⟨-, -, -, hcase, -⟩ := fixture_of_artifacts ha
    obtain ⟨f, hload, hids⟩ := candidates_of_artifacts ha
    refine ⟨f, hload, fun id hid => ?_⟩
    rw [← hids] at hid
    obtain ⟨e, he, hsource⟩ := List.mem_map.mp hid
    have hcaseId : e.caseId = c := ((shaped_of_artifacts ha).evidence e he).1.trans hcase
    refine ⟨e, (mem_evidence h).mpr ⟨file, a, ?_, ?_, he⟩, hcaseId, hsource⟩
    · rw [hcaseId]
      exact hget
    · rw [hcaseId]
      exact ha

/-- Only the row of its own case can be out of date in a session. -/
theorem shows_view {row : CaseRow} {b : CaseArtifacts R} {version : Nat}
    (hne : b.case.caseId ≠ row.caseId) (h : Shows s b version) :
    Shows (sessionView s (some row)) b version := by
  refine ⟨?_, h.2, h.3, h.4, h.5, h.6, h.7, h.8, h.9, h.10⟩
  rw [getCase_sessionView, h.case, Option.map_some, asLoaded]
  exact congrArg some (if_neg hne)

/-- A session that holds an old row of a case sees the desk with the old version
    on file. -/
theorem represents_view (h : Represents api s d) (ha : artifactsOf api caseId = some a)
    {file : File} (hget : d.get caseId = some file) (version : Nat) :
    Represents api (sessionView s (some (caseRow a version)))
      (d.set caseId ⟨version, file.review, file.readings⟩) := by
  obtain ⟨-, -, -, hcase, -⟩ := fixture_of_artifacts ha
  obtain ⟨-, hshows⟩ := getCase_of_some h hget ha
  have hview : Shows (sessionView s (some (caseRow a version))) a version := by
    refine ⟨?_, hshows.2, hshows.3, hshows.4, hshows.5, hshows.6, hshows.7, hshows.8, hshows.9,
      hshows.10⟩
    rw [getCase_sessionView, hshows.case, Option.map_some, asLoaded]
    exact congrArg some (if_pos rfl)
  exact {
    owned := (stocked_sessionView (stocked_of_represents h) _).owned
    stored := by
      intro c
      rw [caseIds_sessionView, h.stored, Dict.get_set]
      by_cases hc : c = caseId
      · rw [if_pos hc, hc]
        exact iff_of_true ⟨file, hget⟩ ⟨_, rfl⟩
      · rw [if_neg hc]
    filed := by
      intro c entry hentry
      rw [Dict.get_set] at hentry
      split at hentry
      · next hc =>
          obtain rfl := Option.some.inj hentry
          subst hc
          exact ⟨(h.filed c file hget).1, a, ha, hview⟩
      · next hc =>
          obtain ⟨hreview, b, hb, hother⟩ := h.filed c entry hentry
          obtain ⟨-, -, -, hbcase, -⟩ := fixture_of_artifacts hb
          refine ⟨hreview, b, hb, shows_view ?_ hother⟩
          show b.case.caseId ≠ a.case.caseId
          rw [hbcase, hcase]
          exact hc
    -- only the version differs, which is no part of a review
    reviews := by
      have hsame : ∀ values : List File,
          values.filterMap File.review = (values.map File.review).filterMap id := by
        intro values
        rw [List.filterMap_map]
        rfl
      show s.reviewTasks.rows = _
      have hkept : (d.set caseId ⟨version, file.review, file.readings⟩).values.map File.review =
          d.values.map File.review := Dict.map_values_set File.review hget rfl
      rw [h.reviews, hsame, hsame, hkept] }

/-- **A RUN ON BOTH LEVELS**, whatever version its session has loaded. -/
theorem represents_refiled (h : Represents api s d) (ha : artifactsOf api caseId = some a)
    {row : Option CaseRow} {loaded : Option Nat} (hrow : row = loaded.map (caseRow a))
    (hfile : loaded ≠ none → ∃ file, d.get caseId = some file)
    (hpersist : persistCaseRun api.runtime (sessionView s row) a = some s') (t : Readings) :
    Represents api s'
      ((d.pop caseId).set caseId ⟨loaded.getD (versionOf d caseId) + 1, a.review, t⟩) := by
  cases loaded with
  | none =>
      subst hrow
      exact (represents_persisted h ha hpersist t).1
  | some version =>
      subst hrow
      obtain ⟨file, hget⟩ := hfile (Option.some_ne_none version)
      obtain ⟨hrep, -⟩ := represents_persisted (represents_view h ha hget version) ha hpersist t
      have hversion :
          versionOf (d.set caseId ⟨version, file.review, file.readings⟩) caseId = version := by
        rw [versionOf, Dict.get_set, if_pos rfl]
      rw [hversion, Dict.pop_set] at hrep
      exact hrep

theorem current_of_represents (h : Represents api s d) : Current api.runtime s where
  owned := h.owned
  shown := by
    intro c hc
    obtain ⟨file, hget⟩ := (h.stored c).mp hc
    obtain ⟨a, ha, hshows⟩ := (h.filed c file hget).2
    obtain ⟨f, -, hrun, hcase, -⟩ := fixture_of_artifacts ha
    exact ⟨f.job, a, file.version, hrun, hcase, hshows⟩

/-- A run leaves the shared rows that its rows refer to, whatever version its
    session has loaded. -/
theorem supplied_refiled (h : Represents api s d) (hs : Supplied api.runtime s)
    (ha : artifactsOf api caseId = some a) {row : Option CaseRow} {loaded : Option Nat}
    (hrow : row = loaded.map (caseRow a))
    (hfile : loaded ≠ none → ∃ file, d.get caseId = some file)
    (hpersist : persistCaseRun api.runtime (sessionView s row) a = some s') :
    Supplied api.runtime s' := by
  -- a session with an old row sees a desk of its own
  obtain ⟨d', hview⟩ : ∃ d', Represents api (sessionView s row) d' := by
    cases loaded with
    | none =>
        subst hrow
        exact ⟨d, h⟩
    | some version =>
        subst hrow
        obtain ⟨file, hget⟩ := hfile (Option.some_ne_none version)
        exact ⟨_, represents_view h ha hget version⟩
  have hsupplied : Supplied api.runtime (sessionView s row) := by
    refine ⟨current_of_represents hview, ?_, ?_⟩
    · cases row <;> exact hs.sources
    · rw [caseIds_sessionView]
      cases row <;> exact hs.agents
  obtain ⟨f, -, hrun, -, -⟩ := fixture_of_artifacts ha
  have hpersisted := (persisted_iff (shaped_of_artifacts ha)).mp hpersist
  exact supplied_persisted (j := f.job) hsupplied hrun hpersisted

/-- Whether a run goes through does not depend on what its session has loaded. -/
theorem refile_persists_iff (h : Represents api s d) (ha : artifactsOf api caseId = some a)
    {row : Option CaseRow} {loaded : Option Nat} (hrow : row = loaded.map (caseRow a))
    (hfile : loaded ≠ none → ∃ file, d.get caseId = some file) :
    (∃ s', persistCaseRun api.runtime (sessionView s row) a = some s') ↔
      ¬ ∃ e ∈ a.evidence, e.sourceId ∈ sourcesElsewhere api d caseId := by
  cases loaded with
  | none =>
      subst hrow
      exact persists_iff h ha
  | some version =>
      subst hrow
      obtain ⟨file, hget⟩ := hfile (Option.some_ne_none version)
      rw [Option.map_some, persists_iff (represents_view h ha hget version) ha, sourcesElsewhere,
        Dict.pop_set]
      rfl

/-! ## Reviews and verdicts -/

/-- Nobody has decided the review. -/
structure Blank (r : ReviewTask) : Prop where
  status : r.status = .pending
  reviewerId : r.reviewerId = none
  reviewerDecision : r.reviewerDecision = none
  reviewerNotes : r.reviewerNotes = none
  decidedAt : r.decidedAt = none

theorem blank_of_artifacts {opened : ReviewTask} (ha : artifactsOf api caseId = some a)
    (hopened : a.review = some opened) : Blank opened := by
  obtain ⟨f, -, hrun, -, -⟩ := fixture_of_artifacts ha
  by_cases hspent : ({} : RunBudget).Spent
  · rw [run_of_spent hspent] at hrun
    obtain rfl := Except.ok.inj hrun
    cases hopened
  · obtain ⟨review, report, entries, hleft, hfiled⟩ :=
      run_of_left api.runtime f.case f.sources hspent
    obtain rfl := Except.ok.inj (hleft.symm.trans hrun)
    obtain ⟨primary, -, rfl⟩ := hfiled.review_eq opened hopened
    exact ⟨rfl, rfl, rfl, rfl, rfl⟩

/-- The review on file is what a run opens, or that as someone has decided it. -/
def FiledReview (opened filed : Option ReviewTask) : Prop :=
  filed = opened ∨ ∃ (o r : ReviewTask) (req : DecisionRequest),
    opened = some o ∧ filed = some r ∧ req.decide o = .ok r

/-- Every column of a verdict is written, also over another verdict. -/
theorem write_verdict {opened changed r : ReviewTask} {req : DecisionRequest}
    (hblank : Blank opened) (hok : req.decide opened = .ok changed)
    (hfiled : FiledReview (some opened) (some r)) :
    ReviewTask.write opened changed r = changed ∧ r.reviewId = opened.reviewId ∧
      r.caseId = opened.caseId := by
  have hverdict : ∀ {req : DecisionRequest} {r : ReviewTask}, req.decide opened = .ok r →
      r = { opened with
        status := .decided
        reviewerId := some req.principal.reviewerId
        reviewerDecision := some req.decision
        reviewerNotes := some (recordedNotes req.notes req.idempotencyKey)
        decidedAt := some req.now } := by
    intro req r hr
    rcases decide_ok hr with ⟨hdecided, -⟩ | ⟨-, heq⟩
    · cases hblank.status.symm.trans hdecided
    · exact heq
  have hchanged := hverdict hok
  rcases hfiled with heq | ⟨o, r', req', ho, hr', hother⟩
  · obtain rfl := Option.some.inj heq
    refine ⟨write_review_loaded ?_, rfl, rfl⟩
    rw [hchanged]
  · obtain rfl := Option.some.inj ho
    obtain rfl := Option.some.inj hr'
    rw [hchanged, hverdict hother]
    refine ⟨?_, rfl, rfl⟩
    -- a verdict fills every column that is blank when the review is opened
    simp [ReviewTask.write, hblank.status, hblank.reviewerId, hblank.reviewerDecision,
      hblank.reviewerNotes, hblank.decidedAt]

/-- The tables are the files, with the shared rows they refer to, the clock
    columns are their dates, and the reviews on file are those of the runs. -/
structure Stores (api : Api R) (db : Database R) (d : Desk) : Prop where
  represents : Represents api db.tables d
  stamped : Stamped api db.clock d
  supplied : Supplied api.runtime db.tables
  filed : ∀ c file a, d.get c = some file → artifactsOf api c = some a →
    FiledReview a.review file.review

theorem Stores.holds (h : Stores api db d) : Holds api db d := ⟨h.represents, h.stamped⟩

/-- A decision in mind: one that is on file already, or a verdict on the review
    as its case's run opens it. -/
def Choice (api : Api R) (req : DecisionRequest) (u : Change) : Prop :=
  u.2 = u.1 ∨ ∃ a, artifactsOf api u.1.caseId = some a ∧ a.review = some u.1 ∧
    req.decide u.1 = .ok u.2

/-- A stored review, in its file. -/
theorem filed_review (h : Stores api db d) {reviewId : String} {r : ReviewTask}
    (hget : db.tables.reviewTasks.get reviewId = some r) :
    ∃ file a, d.get r.caseId = some file ∧ file.review = some r ∧
      artifactsOf api r.caseId = some a ∧ FiledReview a.review (some r) := by
  obtain ⟨file, hfile, hreview⟩ := filed_of_get h.represents hget
  obtain ⟨a, ha, -⟩ := (h.represents.filed r.caseId file hfile).2
  exact ⟨file, a, hfile, hreview, ha, hreview ▸ h.filed r.caseId file a hfile ha⟩

/-- **A DECISION ON BOTH LEVELS**, whatever has been committed since its session
    has loaded the review. -/
theorem represents_settled (h : Stores api db d) {req : DecisionRequest} {u : Change}
    (hu : Choice api req u) (hchanged : u.2 ≠ u.1) {r : ReviewTask}
    (hget : db.tables.reviewTasks.get u.1.reviewId = some r) :
    Stores api
      { db with tables := { db.tables with reviewTasks := commitReview db.tables.reviewTasks u } }
      (d.set r.caseId ⟨versionOf d r.caseId, some u.2, readingsOf d r.caseId⟩) := by
  obtain ⟨a, ha, hopened, hok⟩ := hu.resolve_left hchanged
  obtain ⟨file, a', hfile, hreview, ha', hfiled⟩ := filed_review h hget
  obtain ⟨-, hid, hcase⟩ := decided_of_ok hok
  -- the row under the id is the review of the same case
  have hkey : r.reviewId = u.1.reviewId := Table.key_of_get hget
  have hsame : r.caseId = u.1.caseId := by
    have hname := (filedUnder_of_artifacts ha u.1 hopened).2
    rw [← hkey, ((h.represents.filed _ file hfile).1 r hreview).2] at hname
    exact (String.append_right_inj _).mp hname
  have haa : a' = a := by
    rw [hsame] at ha'
    exact Option.some.inj (ha'.symm.trans ha)
  rw [haa, hopened] at hfiled
  obtain ⟨hwrite, -, -⟩ := write_verdict (blank_of_artifacts ha hopened) hok hfiled
  -- so the commit is that of a session that had loaded the stored row
  have hcommit : commitReview db.tables.reviewTasks u =
      commitReview db.tables.reviewTasks (r, u.2) := by
    refine Table.ext (List.map_congr_left fun x hx => ?_)
    rw [rewriteReview, rewriteReview, hkey]
    split
    · next hxid =>
        have hxr : x = r :=
          Table.eq_of_clash hx (Table.mem_of_get hget) (hxid.trans hkey.symm)
        rw [hxr, hwrite, write_review_loaded (hid.trans hkey.symm)]
    · rfl
  have hrep : Represents api
      { db.tables with reviewTasks := commitReview db.tables.reviewTasks u }
      (d.set r.caseId ⟨versionOf d r.caseId, some u.2, readingsOf d r.caseId⟩) := by
    rw [hcommit]
    exact represents_decided h.represents hget (hid.trans hkey.symm) (hcase.trans hsame.symm)
  have hstamped := stamped_set h.stamped hfile hreview (hid.trans hkey.symm)
    (versionOf d r.caseId)
  refine ⟨hrep, hstamped,
    ⟨current_of_represents hrep, h.supplied.sources, h.supplied.agents⟩, ?_⟩
  · intro c entry b hentry hb
    rw [Dict.get_set] at hentry
    split at hentry
    · next hc =>
        obtain rfl := Option.some.inj hentry
        rw [hc, hsame] at hb
        obtain rfl := Option.some.inj (ha.symm.trans hb)
        exact Or.inr ⟨u.1, u.2, req, hopened, rfl, hok⟩
    · exact h.filed c entry b hentry hb

/-! ## Points and stages -/

def OnFile (d : Desk) (caseId : String) : Prop := ∃ file, d.get caseId = some file

/-- No case is taken off the desk. -/
def Grows (d d' : Desk) : Prop := ∀ c, OnFile d c → OnFile d' c

/-- The row that a replay holds, and its version. -/
inductive Loaded (api : Api R) (d : Desk) (caseId : String) :
    Option CaseRow → Option Nat → Prop where
  | fresh : Loaded api d caseId none none
  | held {a : CaseArtifacts R} {version : Nat} (ha : artifactsOf api caseId = some a)
      (on : OnFile d caseId) : Loaded api d caseId (some (caseRow a version)) (some version)

/-- How far a session has come on both levels. -/
inductive Points (api : Api R) (d : Desk) : Point R → Stage R → Prop where
  | arrived : Points api d .arrived .arrived
  | running {caseId : String} {row : Option CaseRow} {loaded : Option Nat}
      (h : Loaded api d caseId row loaded) :
      Points api d (.persisting caseId row) (.running caseId loaded)
  | deciding {req : DecisionRequest} {u : Change} (h : Choice api req u) :
      Points api d (.deciding req u) (.deciding req u)
  | ran {caseId : String} (on : OnFile d caseId) : Points api d (.persisted caseId) (.ran caseId)
  | decided {reviewId : String} : Points api d (.decided reviewId) (.decided reviewId)
  | asking {q : Query} {caseId : String} (hq : selects q = some caseId) (on : OnFile d caseId) :
      Points api d (.selecting q) (.asking q)
  | listing {caseId : String} {a : CaseArtifacts R} {shown : List ShownAgentRun}
      {runs : List LoadedRun} (ha : artifactsOf api caseId = some a) (on : OnFile d caseId)
      (hruns : ∀ r ∈ runs, r.run ∈ a.agentRuns) :
      Points api d (.listing shown runs) (.listing caseId shown runs)
  | responded {r : Response} {createdAt : Option Instant} :
      Points api d (.responded r createdAt) (.responded r createdAt)
  | shown {x : Answer R} : Points api d (.shown x) (.shown x)

/-- As the desk grows, no other session is disturbed. -/
theorem Points.grown {d' : Desk} {p : Point R} {p' : Stage R} (h : Points api d p p')
    (hgrows : Grows d d') : Points api d' p p' := by
  cases h with
  | arrived => exact .arrived
  | running hloaded =>
      cases hloaded with
      | fresh => exact .running .fresh
      | held ha on => exact .running (.held ha (hgrows _ on))
  | deciding hu => exact .deciding hu
  | ran on => exact .ran (hgrows _ on)
  | decided => exact .decided
  | asking hq on => exact .asking hq (hgrows _ on)
  | listing ha on hruns => exact .listing ha (hgrows _ on) hruns
  | responded => exact .responded
  | shown => exact .shown

/-! ## One step of one session -/

/-- What a step leaves on both levels. -/
structure Stepped (api : Api R) (d : Desk) (next : Point R × Database R)
    (next' : Stage R × Desk) : Prop where
  store : Stores api next.2 next'.2
  point : Points api next'.2 next.1 next'.1
  grows : Grows d next'.2

/-- A step that writes nothing. -/
theorem stepped_read (h : Stores api db d) {p : Point R} {p' : Stage R}
    (hp : Points api d p p') : Stepped api d (p, db) (p', d) :=
  ⟨h, hp, fun _ on => on⟩

theorem grows_set (d : Desk) (c : String) (file : File) : Grows d (d.set c file) := by
  intro c' on
  rw [OnFile, Dict.get_set]
  split
  · exact ⟨file, rfl⟩
  · exact on

theorem stepped_accept (h : Stores api db d) (call : Call) :
    Stepped api d (CaseSessions.accept api db.tables call, db) (accept api d call, d) := by
  refine stepped_read h ?_
  have hfixture : ∀ caseId, Points api d
      (if caseId ∈ api.registry.listAvailableCaseIds then .persisting caseId none
        else .responded (.caseFixtureNotFound caseId))
      (if caseId ∈ api.registry.listAvailableCaseIds then .running caseId none
        else .responded (.caseFixtureNotFound caseId)) := by
    intro caseId
    split
    · exact .running .fresh
    · exact .responded
  rw [CaseSessions.accept, accept]
  cases requireAuth api.tokens call.authorization with
  | error e => exact .responded
  | ok principal =>
      cases call.request with
      | createCase caseId => exact hfixture caseId
      | runAndPersistCase caseId => exact hfixture caseId
      | replayCase caseId =>
          dsimp only
          cases hget : d.get caseId with
          | none =>
              rw [getCase_of_none h.represents hget]
              exact .responded
          | some file =>
              obtain ⟨a, ha, -⟩ := (h.represents.filed caseId file hget).2
              rw [(getCase_of_some h.represents hget ha).1]
              exact .running (.held ha ⟨file, hget⟩)
      | postReviewDecision reviewId body =>
          dsimp only
          generalize decisionRequest principal reviewId body call.now = req
          rw [choose, DecisionRequest.read, ← get_reviews h.represents]
          cases hget : db.tables.reviewTasks.get req.reviewId with
          | none => exact .responded
          | some loaded =>
              by_cases hrole : req.principal.role = loaded.assignedRole
              · simp only [hrole, ne_eq, not_true_eq_false, if_false]
                cases hok : req.decide loaded with
                | error e => exact .responded
                | ok changed =>
                    refine .deciding ?_
                    obtain ⟨file, a, -, -, ha, hfiled⟩ := filed_review h hget
                    rcases decide_ok hok with ⟨-, hsame⟩ | ⟨hpending, -⟩
                    · exact Or.inl hsame
                    · -- a pending review is the one that the run has opened
                      refine Or.inr ⟨a, ha, ?_, hok⟩
                      rcases hfiled with hopened | ⟨o, r, req', -, hr, hother⟩
                      · exact hopened.symm
                      · obtain rfl := Option.some.inj hr
                        cases hpending.symm.trans (decided_of_ok hother).1
              · simp only [hrole, ne_eq, not_false_eq_true, if_true]
                exact .responded

theorem stepped_persist (h : Stores api db d) {row : Option CaseRow} {loaded : Option Nat}
    (hloaded : Loaded api d caseId row loaded) (t : Readings) :
    Stepped api d (persist api db caseId row t) (refile api d caseId loaded t) := by
  cases ha : artifactsOf api caseId with
  | none =>
      have hload : api.registry.loadCaseFixture caseId = none := by
        refine Option.eq_none_iff_forall_ne_some.mpr fun f hf => ?_
        obtain ⟨a, ha', -⟩ := artifacts_of_fixture hf
        cases ha.symm.trans ha'
      rw [persist, hload, refile, ha]
      exact stepped_read h .responded
  | some a =>
      obtain ⟨f, hload, -, hcase, hpersist⟩ := fixture_of_artifacts ha
      have hname : f.case.caseId = caseId := (api.registry.loaded hload).1
      obtain ⟨hrow, hfile⟩ : row = loaded.map (caseRow a) ∧ (loaded ≠ none → OnFile d caseId) := by
        cases hloaded with
        | fresh => exact ⟨rfl, fun hne => absurd rfl hne⟩
        | held ha' on =>
            obtain rfl := Option.some.inj (ha.symm.trans ha')
            exact ⟨rfl, fun _ => on⟩
      rw [persist, hload, refile, ha]
      by_cases hclash : ∃ e ∈ a.evidence, e.sourceId ∈ sourcesElsewhere api d caseId
      · have hnone : persistCaseRun api.runtime (sessionView db.tables row) a = none := by
          refine Option.eq_none_iff_forall_ne_some.mpr fun s' hs' => ?_
          exact (refile_persists_iff h.represents ha hrow hfile).mp ⟨s', hs'⟩ hclash
        simp only [hpersist, hnone, if_pos hclash]
        exact stepped_read h .responded
      · obtain ⟨s', hs'⟩ := (refile_persists_iff h.represents ha hrow hfile).mpr hclash
        simp only [hpersist, hs', hname, if_neg hclash]
        -- the file is moved to the end, and no other is touched
        have hgrows : Grows d ((d.pop caseId).set caseId
            ⟨loaded.getD (versionOf d caseId) + 1, a.review, t⟩) := by
          rintro c ⟨file, hget⟩
          rw [OnFile, Dict.get_set, Dict.get_pop]
          by_cases hc : c = caseId
          · rw [if_pos hc]
            exact ⟨_, rfl⟩
          · rw [if_neg hc, if_neg hc]
            exact ⟨file, hget⟩
        refine ⟨⟨represents_refiled h.represents ha hrow hfile hs' t,
          stamped_run h.represents h.stamped ha _ t,
          supplied_refiled h.represents h.supplied ha hrow hfile hs', ?_⟩, .ran ?_, hgrows⟩
        · intro c file b hget hb
          rw [Dict.get_set, Dict.get_pop] at hget
          split at hget
          · next hc =>
              obtain rfl := Option.some.inj hget
              rw [hc] at hb
              obtain rfl := Option.some.inj (ha.symm.trans hb)
              exact Or.inl rfl
          · exact h.filed c file b hget hb
        · rw [OnFile, Dict.get_set, if_pos rfl]
          exact ⟨_, rfl⟩

theorem stepped_commit (h : Stores api db d) {req : DecisionRequest} {u : Change}
    (hu : Choice api req u) : Stepped api d (commit db req u) (settle d req u) := by
  rw [commit, settle, ← get_reviews h.represents]
  by_cases hsame : u.2 = u.1
  · simp only [hsame, if_true]
    exact stepped_read h .decided
  · simp only [hsame, if_false]
    cases hget : db.tables.reviewTasks.get u.1.reviewId with
    | none => exact stepped_read h .responded
    | some r => exact ⟨represents_settled h hu hsame hget, .decided, grows_set _ _ _⟩

/-- The row that a run is answered with is read from the tables as from the
    desk. -/
theorem readBackCase_eq (h : Stores api db d) (on : OnFile d caseId) :
    CaseSessions.respond db (readBackCase db.tables caseId) =
      (.responded (caseOnFile api d caseId) (createdAt d (caseOnFile api d caseId)) : Point R) := by
  obtain ⟨file, hget⟩ := on
  obtain ⟨a, ha, -⟩ := (h.represents.filed caseId file hget).2
  obtain ⟨-, -, -, hcase, -⟩ := fixture_of_artifacts ha
  have hdate := h.stamped.rows caseId file a hget ha .caseCreatedAt caseId
    (List.mem_singleton.mpr hcase.symm)
  have hrow : (caseRow a file.version).caseId = caseId := hcase
  rw [readBackCase, caseOnFile, (getCase_of_some h.represents hget ha).1, hget, ha]
  dsimp only [CaseSessions.respond, Response.createdAt, createdAt]
  rw [hrow, hdate, readingsOf_of_get hget]

theorem readBackReview_eq (h : Stores api db d) (reviewId : String) :
    CaseSessions.respond db (readBackReview db.tables reviewId) =
      (.responded (reviewOnFile d reviewId) (createdAt d (reviewOnFile d reviewId)) : Point R) := by
  rw [readBackReview, reviewOnFile, ← get_reviews h.represents]
  cases hget : db.tables.reviewTasks.get reviewId with
  | none => rfl
  | some r =>
      have hdate := congrArg ShownReview.createdAt (review_dated h.holds hget)
      exact congrArg (fun date => Point.responded _ (some date)) hdate

theorem stepped_ask (h : Stores api db d) (q : Query) :
    Stepped api d (ask api db q, db) (look api d q, d) := by
  refine stepped_read h ?_
  rw [ask, look]
  cases hq : selects q with
  | none =>
      dsimp only
      rw [answer_refines h.holds q]
      exact .shown
  | some caseId =>
      dsimp only
      cases hget : d.get caseId with
      | none =>
          rw [getCase_of_none h.represents hget]
          exact .shown
      | some file =>
          obtain ⟨a, ha, -⟩ := (h.represents.filed caseId file hget).2
          rw [(getCase_of_some h.represents hget ha).1]
          exact .asking hq ⟨file, hget⟩

/-- Rows that are selected later are those of the last run by then. -/
theorem stepped_select (h : Stores api db d) {q : Query} (hq : selects q = some caseId)
    (on : OnFile d caseId) :
    Stepped api d (select api db q, db) (consult api d q, d) := by
  refine stepped_read h ?_
  obtain ⟨file, hget⟩ := on
  obtain ⟨a, ha, hshows⟩ := (h.represents.filed caseId file hget).2
  have hanswer := answer_refines h.holds q
  rcases select_shown hq (getCase_of_some h.represents hget ha).1 with
    hshown | ⟨runs, hlisting, hruns⟩
  · rw [hshown, hanswer]
    cases q with
    | getCaseAgentRuns c => cases hshown
    | getCaseEvidence c | getCaseClaims c | getCaseAuthority c | getCaseTrace c
    | verifyCaseTrace c | getCaseGuardrailReport c => exact .shown
    | caseDemo | listCaseFixtures | listAgentDefinitions | getCase c | listReviews
    | getReview c => cases hq
  · cases q with
    | getCaseAgentRuns c =>
        obtain rfl := Option.some.inj hq
        rw [select, runs_loaded ha hshows (h.stamped.rows _ file a hget ha)]
        simp only [consult, hget, ha]
        refine .listing ha ⟨file, hget⟩ fun r hr => ?_
        obtain ⟨run, hrun, rfl⟩ := List.mem_map.mp hr
        exact hrun
    | getCaseEvidence c | getCaseClaims c | getCaseAuthority c | getCaseTrace c
    | verifyCaseTrace c | getCaseGuardrailReport c => cases hlisting
    | caseDemo | listCaseFixtures | listAgentDefinitions | getCase c | listReviews
    | getReview c => cases hq

theorem stepped_list (h : Stores api db d) (ha : artifactsOf api caseId = some a)
    (on : OnFile d caseId) {shown : List ShownAgentRun} {r : LoadedRun} {runs : List LoadedRun}
    (hruns : ∀ x ∈ r :: runs, x.run ∈ a.agentRuns) :
    Stepped api d (.listing (shown ++ [.of db.clock db.tables.agentSteps.rows r]) runs, db)
      (.listing caseId (shown ++ [withSteps api d caseId r]) runs, d) := by
  refine stepped_read h ?_
  obtain ⟨file, hget⟩ := on
  have hshows := (getCase_of_some h.represents hget ha).2
  obtain ⟨hr, hrest⟩ := List.forall_mem_cons.mp hruns
  have hsteps := steps_read ha hshows (h.stamped.rows caseId file a hget ha) hr
  simp only [withSteps, ha, readingsOf_of_get hget, hsteps]
  exact .listing ha ⟨file, hget⟩ hrest

/-- **EACH STEP** of a session does on the tables what it does on the desk. -/
theorem stepped (h : Stores api db d) {p : Point R} {p' : Stage R} (hp : Points api d p p')
    (incoming : Incoming) :
    Stepped api d (CaseSessions.step api incoming p db) (step api incoming p' d) := by
  cases hp with
  | arrived =>
      cases incoming with
      | call c => exact stepped_accept h c
      | ask q => exact stepped_ask h q
  | running hloaded => cases incoming <;> exact stepped_persist h hloaded _
  | deciding hu => cases incoming <;> exact stepped_commit h hu
  | @ran caseId on =>
      have hread : Stepped api d (CaseSessions.respond db (readBackCase db.tables caseId), db)
          (respond d (caseOnFile api d caseId), d) := by
        rw [readBackCase_eq h on]
        exact stepped_read h .responded
      cases incoming <;> exact hread
  | @decided reviewId =>
      have hread : Stepped api d (CaseSessions.respond db (readBackReview db.tables reviewId), db)
          (respond d (reviewOnFile d reviewId), d) := by
        rw [readBackReview_eq h]
        exact stepped_read h .responded
      cases incoming <;> exact hread
  | asking hq on => cases incoming <;> exact stepped_select h hq on
  | @listing caseId a shown runs ha on hruns =>
      cases runs with
      | nil => cases incoming <;> exact stepped_read h .shown
      | cons r runs => cases incoming <;> exact stepped_list h ha on hruns
  | responded => cases incoming <;> exact stepped_read h .responded
  | shown => cases incoming <;> exact stepped_read h .shown

/-! ## All sessions -/

section Systems

variable {ι : Type} [DecidableEq ι]

omit [DecidableEq ι] in
theorem simulation (api : Api R) (incoming : ι → Incoming) :
    Sessions.Simulation (fun i => CaseSessions.step api (incoming i))
      (fun i => step api (incoming i)) (Stores api) (fun _ => Points api) where
  store i _ _ _ _ h hp := (stepped h hp (incoming i)).store
  point i _ _ _ _ h hp := (stepped h hp (incoming i)).point
  others i _ _ _ _ h hp _ _ _ hq := hq.grown (stepped h hp (incoming i)).grows

theorem stores_empty (api : Api R) : Stores api Database.empty (∅ : Desk) :=
  ⟨represents_empty api, stamped_empty api _, supplied_empty api.runtime,
    fun c file a hget => by cases hget⟩

theorem related_run (api : Api R) (incoming : ι → Incoming) (sched : List ι) :
    Related (Stores api) (fun _ => Points api)
      (run (CaseSessions.sys api incoming) CaseSessions.opened sched)
      (run (sys api incoming) opened sched) :=
  (simulation api incoming).related_run ⟨stores_empty api, fun _ => .arrived⟩ sched

/-- The sessions have come to the same on both levels: calls and questions are
    answered alike, and so is a question that is put now and not overtaken. -/
structure Alike (api : Api R) (σ : Config ι (Database R) (Point R))
    (τ : Config ι Desk (Stage R)) : Prop where
  calls : ∀ i r date, σ.pc i = .responded r date ↔ τ.pc i = .responded r date
  questions : ∀ i x, σ.pc i = .shown x ↔ τ.pc i = .shown x
  tables : ∀ q, CaseQueries.answer api σ.db q = CaseDesk.answer api τ.db q

omit [DecidableEq ι] in
theorem alike_of_related {σ : Config ι (Database R) (Point R)} {τ : Config ι Desk (Stage R)}
    (hrel : Related (Stores api) (fun _ => Points api) σ τ) : Alike api σ τ where
  calls i r date := by
    have hp := hrel.point i
    generalize σ.pc i = p at hp ⊢
    generalize τ.pc i = p' at hp ⊢
    -- a session is answered on one level exactly when it is on the other
    cases hp <;> simp
  questions i x := by
    have hp := hrel.point i
    generalize σ.pc i = p at hp ⊢
    generalize τ.pc i = p' at hp ⊢
    cases hp <;> simp
  tables := answer_refines hrel.store.holds

/-- **THE CASE API REFINES THE DESK UNDER CONCURRENCY**: any number of requests,
    overtaking one another between any two statements, are answered as the desk
    answers them, where a question looks for its case at one moment and is
    answered at another, agent runs one by one, and a run or a decision is filed
    at one moment and shown as of another. -/
theorem sessions_refine_desk (api : Api R) (incoming : ι → Incoming) (sched : List ι) :
    Alike api (run (CaseSessions.sys api incoming) CaseSessions.opened sched)
      (run (sys api incoming) opened sched) :=
  alike_of_related (related_run api incoming sched)

end Systems

end DeskSessions
