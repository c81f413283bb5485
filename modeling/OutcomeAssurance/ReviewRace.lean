import OutcomeAssurance.ReviewModel

/-! # Concurrent decisions of one review

    Any number of decision requests on one PENDING review, each a read of the
    row followed later by a commit of the changed columns.  The review is
    decided once exactly when every commit finds it still PENDING
    (`decidedOnce_iff`). -/

namespace ReviewRace

open KeyedTable Interleaving Runs ReviewModel

variable {ι : Type} [DecidableEq ι]

/-- A stored review that nobody has decided. -/
structure OpenReview where
  reviews : Table ReviewTask
  review : ReviewTask
  stored : reviews.get review.reviewId = some review
  pending : review.status = .pending

/-- The request, posted to this review. -/
def OpenReview.post (R : OpenReview) (req : DecisionRequest) : DecisionRequest :=
  { req with reviewId := R.review.reviewId }

/-- One read or commit of one request. -/
def sys (R : OpenReview) (req : ι → DecisionRequest) :
    Config ι (Table ReviewTask) (Phase Change DecisionResponse) → ι →
      Config ι (Table ReviewTask) (Phase Change DecisionResponse) :=
  decision.sched (fun i => R.post (req i))

/-- Every request before its read. -/
def OpenReview.opened (R : OpenReview) :
    Config ι (Table ReviewTask) (Phase Change DecisionResponse) :=
  ⟨R.reviews, fun _ => .idle⟩

/-- What is asked of a schedule: at most one request reports success, the others
    that end are told that the review is decided (or that their role may not
    decide it), and the row records the successful one. -/
structure DecidedOnce (R : OpenReview) (req : ι → DecisionRequest) (sched : List ι) : Prop where
  atMostOne : ∀ i j,
    Succeeded DecisionResponse.success ((run (sys R req) R.opened sched).pc i) →
    Succeeded DecisionResponse.success ((run (sys R req) R.opened sched).pc j) → i = j
  refused : ∀ i r, (run (sys R req) R.opened sched).pc i = .done r → r.success = true ∨
    r = .reviewAlreadyDecided ⟨R.review.reviewId⟩ ∨
    ((req i).principal.role ≠ R.review.assignedRole ∧
      r = .roleNotPermitted (req i).principal.role R.review.assignedRole)
  recorded : ∀ i,
    Succeeded DecisionResponse.success ((run (sys R req) R.opened sched).pc i) →
    ∃ row, (run (sys R req) R.opened sched).db.get R.review.reviewId = some row ∧
      row.status = .decided ∧ row.reviewerId = some (req i).principal.reviewerId ∧
      row.reviewerDecision = some (req i).decision ∧
      row.reviewerNotes = some (recordedNotes (req i).notes (req i).idempotencyKey)

/-- If the next step of the request is its commit, the review is PENDING. -/
def CommitsPending (R : OpenReview)
    (σ : Config ι (Table ReviewTask) (Phase Change DecisionResponse)) (i : ι) : Prop :=
  ∀ u, σ.pc i = .ready u →
    (σ.db.get R.review.reviewId).map (·.status) = some .pending

/-- The review as the request decides it. -/
def OpenReview.decidedBy (R : OpenReview) (req : DecisionRequest) : ReviewTask :=
  { R.review with
    status := .decided
    reviewerId := some req.principal.reviewerId
    reviewerDecision := some req.decision
    reviewerNotes := some (recordedNotes req.notes req.idempotencyKey)
    decidedAt := some req.now }

/-! ## What any interleaving keeps -/

/-- A change some request holds: it was made on the PENDING review, or replays a
    decision that is already stored. -/
structure Held (R : OpenReview) (req : DecisionRequest) (row : ReviewTask) (u : Change) :
    Prop where
  id : u.1.reviewId = R.review.reviewId
  role : u.2.assignedRole = u.1.assignedRole
  origin : (u.1 = R.review ∧ u.2 = R.decidedBy req) ∨
    (u.1.status = .decided ∧ u.2 = u.1 ∧ row.status = .decided)

/-- The review as stored, and what the requests know of it. -/
structure Kept (R : OpenReview) (req : ι → DecisionRequest) (row : ReviewTask)
    (σ : Config ι (Table ReviewTask) (Phase Change DecisionResponse)) : Prop where
  stored : σ.db.get R.review.reviewId = some row
  role : row.assignedRole = R.review.assignedRole
  untouched : row.status = .pending →
    row = R.review ∧ ∀ i, ¬ Succeeded DecisionResponse.success (σ.pc i)
  credited : row.status = .decided → ∃ i, Succeeded DecisionResponse.success (σ.pc i)
  held : ∀ i u, σ.pc i = .ready u → Held R (req i) row u
  refused : ∀ i r, σ.pc i = .done r → r.success = true ∨
    r = .reviewAlreadyDecided ⟨R.review.reviewId⟩ ∨
    ((req i).principal.role ≠ R.review.assignedRole ∧
      r = .roleNotPermitted (req i).principal.role R.review.assignedRole)

omit [DecidableEq ι] in
theorem kept_opened (R : OpenReview) (req : ι → DecisionRequest) :
    Kept R req R.review R.opened := by
  refine ⟨R.stored, rfl, fun _ => ⟨rfl, fun _ h => h⟩, ?_, ?_, ?_⟩
  · intro hdecided
    rw [R.pending] at hdecided
    cases hdecided
  · intro i u hu
    cases hu
  · intro i r hr
    cases hr

/-- What the read of a request finds. -/
theorem read_post {R : OpenReview} (req : DecisionRequest) {row : ReviewTask}
    {reviews : Table ReviewTask} (hstored : reviews.get R.review.reviewId = some row)
    (hrole : row.assignedRole = R.review.assignedRole)
    (huntouched : row.status = .pending → row = R.review) :
    (req.principal.role ≠ R.review.assignedRole ∧
      (R.post req).read reviews
        = .inl (.roleNotPermitted req.principal.role R.review.assignedRole)) ∨
    (R.post req).read reviews = .inl (.reviewAlreadyDecided ⟨R.review.reviewId⟩) ∨
    ∃ u, (R.post req).read reviews = .inr u ∧ Held R req row u := by
  have hid : row.reviewId = R.review.reviewId := Table.key_of_get hstored
  have hget : reviews.get (R.post req).reviewId = some row := hstored
  rw [← hrole]
  by_cases hpermitted : req.principal.role = row.assignedRole
  · have hread := read_permitted hget hpermitted
    right
    cases hdecide : req.decide row with
    | error e =>
        obtain ⟨-, rfl⟩ := decide_error hdecide
        exact Or.inl (hid ▸ hread.1 _ hdecide)
    | ok changed =>
        right
        have hok := hread.2 changed hdecide
        rcases decide_ok hdecide with ⟨hstatus, rfl⟩ | ⟨hpending, rfl⟩
        · exact ⟨_, hok, hid, rfl, Or.inr ⟨hstatus, rfl, hstatus⟩⟩
        · have hrow := huntouched hpending
          subst hrow
          exact ⟨_, hok, rfl, rfl, Or.inl ⟨rfl, rfl⟩⟩
  · exact Or.inl ⟨hpermitted, read_unpermitted hget hpermitted⟩

section Read

variable {R : OpenReview} {req : ι → DecisionRequest} {row : ReviewTask}
  {σ : Config ι (Table ReviewTask) (Phase Change DecisionResponse)} {i : ι}
  (h : Kept R req row σ) (hpc : σ.pc i = .idle)

include h hpc

/-- The point a read reaches: refused, or holding a change; never a success. -/
theorem read_reaches : (∃ r, (sys R req σ i).pc i = .done r ∧ r.success = false ∧
      (r = .reviewAlreadyDecided ⟨R.review.reviewId⟩ ∨
        ((req i).principal.role ≠ R.review.assignedRole ∧
          r = .roleNotPermitted (req i).principal.role R.review.assignedRole))) ∨
    ∃ u, (sys R req σ i).pc i = .ready u ∧ Held R (req i) row u := by
  have hself : (sys R req σ i).pc i = (decision.step (R.post (req i)) .idle σ.db).1 := by
    rw [← hpc]
    exact Txn.sched_pc_self σ i
  rcases read_post (req i) h.stored h.role (fun hp => (h.untouched hp).1) with
    ⟨hrole, hread⟩ | hread | ⟨u, hread, hheld⟩
  · refine Or.inl ⟨_, hself.trans ?_, rfl, Or.inr ⟨hrole, rfl⟩⟩
    exact congrArg Prod.fst (Txn.step_idle_inl (M := decision) hread).1
  · refine Or.inl ⟨_, hself.trans ?_, rfl, Or.inl rfl⟩
    exact congrArg Prod.fst (Txn.step_idle_inl (M := decision) hread).1
  · refine Or.inr ⟨u, hself.trans ?_, hheld⟩
    exact congrArg Prod.fst (Txn.step_idle_inr (M := decision) hread).1

/-- The successes after a read are those before it. -/
theorem succeeded_read (j : ι) : Succeeded DecisionResponse.success ((sys R req σ i).pc j) ↔
    Succeeded DecisionResponse.success (σ.pc j) := by
  by_cases hj : j = i
  · subst hj
    rw [hpc]
    refine iff_of_false ?_ (fun hs => hs)
    rcases read_reaches h hpc with ⟨r, hr, hfail, -⟩ | ⟨u, hu, -⟩
    · rw [hr]
      show ¬ r.success = true
      rw [hfail]
      intro hs
      cases hs
    · rw [hu]
      exact fun hs => hs
  · have hother : (sys R req σ i).pc j = σ.pc j := Txn.sched_pc_other σ hj
    rw [hother]

/-- **A READ** keeps what is kept. -/
theorem kept_read : Kept R req row (sys R req σ i) := by
  have hdb : (sys R req σ i).db = σ.db := by
    show (decision.step (R.post (req i)) (σ.pc i) σ.db).2 = σ.db
    rw [hpc]
    cases hread : decision.read (R.post (req i)) σ.db with
    | inl r => rw [(Txn.step_idle_inl hread).1]
    | inr u => rw [(Txn.step_idle_inr hread).1]
  have hother : ∀ {j}, j ≠ i → (sys R req σ i).pc j = σ.pc j := fun hj => Txn.sched_pc_other σ hj
  have hreached := read_reaches h hpc
  have hsuccess := succeeded_read h hpc
  refine ⟨hdb ▸ h.stored, h.role, ?_, ?_, ?_, ?_⟩
  · intro hp
    obtain ⟨hrow, hnone⟩ := h.untouched hp
    exact ⟨hrow, fun j hs => hnone j ((hsuccess j).mp hs)⟩
  · intro hd
    obtain ⟨j, hj⟩ := h.credited hd
    exact ⟨j, (hsuccess j).mpr hj⟩
  · intro j u hu
    by_cases hj : j = i
    · subst hj
      rcases hreached with ⟨r, hr, -⟩ | ⟨u', hu', hheld⟩
      · cases hr.symm.trans hu
      · obtain rfl : u' = u := Phase.ready.inj (hu'.symm.trans hu)
        exact hheld
    · rw [hother hj] at hu
      exact h.held j u hu
  · intro j r hr
    by_cases hj : j = i
    · subst hj
      rcases hreached with ⟨r', hr', -, hwhy⟩ | ⟨u, hu, -⟩
      · obtain rfl : r' = r := Phase.done.inj (hr'.symm.trans hr)
        exact Or.inr hwhy
      · cases hu.symm.trans hr
    · rw [hother hj] at hr
      exact h.refused j r hr

end Read

/-- **A COMMIT** decides the review and reports success. -/
theorem kept_commit {R : OpenReview} {req : ι → DecisionRequest} {row : ReviewTask} {u : Change}
    {σ : Config ι (Table ReviewTask) (Phase Change DecisionResponse)} {i : ι}
    (h : Kept R req row σ) (hpc : σ.pc i = .ready u) :
    Kept R req (rewriteReview u row) (sys R req σ i) ∧
      Succeeded DecisionResponse.success ((sys R req σ i).pc i) ∧
      (rewriteReview u row).status = .decided := by
  have hheld := h.held i u hpc
  have hid : row.reviewId = u.1.reviewId := (Table.key_of_get h.stored).trans hheld.id.symm
  have hget : (commitReview σ.db u).get R.review.reviewId = some (rewriteReview u row) := by
    rw [get_commitReview, h.stored]
    rfl
  have hcommit : (R.post (req i)).commit u σ.db
      = (.decided (rewriteReview u row), commitReview σ.db u) := by
    rw [DecisionRequest.commit]
    rw [hheld.id, hget]
  have hstep : decision.step (R.post (req i)) (σ.pc i) σ.db
      = (.done (.decided (rewriteReview u row)), commitReview σ.db u) := by
    rw [hpc]
    show (Phase.done ((R.post (req i)).commit u σ.db).1, ((R.post (req i)).commit u σ.db).2) = _
    rw [hcommit]
  have hdb : (sys R req σ i).db = commitReview σ.db u := congrArg Prod.snd hstep
  have hself : (sys R req σ i).pc i = .done (.decided (rewriteReview u row)) :=
    (Txn.sched_pc_self σ i).trans (congrArg Prod.fst hstep)
  have hother : ∀ {j}, j ≠ i → (sys R req σ i).pc j = σ.pc j := fun hj => Txn.sched_pc_other σ hj
  have hrewrite : rewriteReview u row = ReviewTask.write u.1 u.2 row := if_pos hid
  have hdecided : (rewriteReview u row).status = .decided := by
    rw [hrewrite]
    show (if u.2.status = u.1.status then row.status else u.2.status) = .decided
    rcases hheld.origin with ⟨hloaded, hchanged⟩ | ⟨hloaded, hchanged, hrow⟩
    · rw [hloaded, hchanged, R.pending]
      rfl
    · rw [hchanged, if_pos rfl, hrow]
  have hsucc : Succeeded DecisionResponse.success ((sys R req σ i).pc i) := by
    rw [hself]
    rfl
  refine ⟨⟨?_, ?_, ?_, fun _ => ⟨i, hsucc⟩, ?_, ?_⟩, hsucc, hdecided⟩
  · rw [hdb]
    exact hget
  · rw [hrewrite]
    show (if u.2.assignedRole = u.1.assignedRole then row.assignedRole else _) = _
    rw [if_pos hheld.role, h.role]
  · intro hp
    cases hdecided.symm.trans hp
  · intro j v hv
    by_cases hj : j = i
    · subst hj
      cases hself.symm.trans hv
    · rw [hother hj] at hv
      obtain ⟨hvid, hvrole, hvorigin⟩ := h.held j v hv
      refine ⟨hvid, hvrole, hvorigin.imp_right ?_⟩
      rintro ⟨hv₁, hv₂, -⟩
      exact ⟨hv₁, hv₂, hdecided⟩
  · intro j r hr
    by_cases hj : j = i
    · subst hj
      obtain rfl := Phase.done.inj (hself.symm.trans hr)
      exact Or.inl rfl
    · rw [hother hj] at hr
      exact h.refused j r hr

/-- A request that has ended changes nothing. -/
theorem step_done {R : OpenReview} {req : ι → DecisionRequest}
    {σ : Config ι (Table ReviewTask) (Phase Change DecisionResponse)} {i : ι}
    {r : DecisionResponse} (hpc : σ.pc i = .done r) : sys R req σ i = σ := by
  show (⟨(decision.step _ (σ.pc i) σ.db).2,
    Function.update σ.pc i (decision.step _ (σ.pc i) σ.db).1⟩ : Config ι _ _) = σ
  rw [hpc]
  show (⟨σ.db, Function.update σ.pc i (.done r)⟩ : Config ι _ _) = σ
  rw [← hpc, Function.update_eq_self]

/-- **STEP LEMMA**: every step keeps what is kept. -/
theorem kept_step {R : OpenReview} {req : ι → DecisionRequest} {row : ReviewTask}
    (σ : Config ι (Table ReviewTask) (Phase Change DecisionResponse)) (i : ι)
    (h : Kept R req row σ) : ∃ row', Kept R req row' (sys R req σ i) := by
  cases hpc : σ.pc i with
  | idle => exact ⟨row, kept_read h hpc⟩
  | ready u => exact ⟨_, (kept_commit h hpc).1⟩
  | done r =>
      rw [step_done hpc]
      exact ⟨row, h⟩

theorem kept_run (R : OpenReview) (req : ι → DecisionRequest) (sched : List ι) :
    ∃ row, Kept R req row (run (sys R req) R.opened sched) := by
  refine run_invariant (I := fun σ => ∃ row, Kept R req row σ) ?_ ⟨_, kept_opened R req⟩ sched
  rintro σ i ⟨row, h⟩
  exact kept_step σ i h

/-- A request that has reported success keeps its report. -/
theorem succeeded_run {R : OpenReview} {req : ι → DecisionRequest}
    {σ : Config ι (Table ReviewTask) (Phase Change DecisionResponse)} {i : ι}
    (h : Succeeded DecisionResponse.success (σ.pc i)) (sched : List ι) :
    Succeeded DecisionResponse.success ((run (sys R req) σ sched).pc i) := by
  cases hpc : σ.pc i with
  | idle => rw [hpc] at h; exact h.elim
  | ready u => rw [hpc] at h; exact h.elim
  | done r =>
      have hstays : (run (sys R req) σ sched).pc i = .done r := Txn.done_stable hpc sched
      rw [hstays, ← hpc]
      exact h

/-! ## The exact condition -/

/-- One request at most has succeeded, and the row is as it decided it. -/
structure Single (R : OpenReview) (req : ι → DecisionRequest) (row : ReviewTask)
    (σ : Config ι (Table ReviewTask) (Phase Change DecisionResponse)) : Prop where
  kept : Kept R req row σ
  atMostOne : ∀ i j, Succeeded DecisionResponse.success (σ.pc i) →
    Succeeded DecisionResponse.success (σ.pc j) → i = j
  recorded : ∀ i, Succeeded DecisionResponse.success (σ.pc i) → row = R.decidedBy (req i)

/-- A step whose commit finds the review PENDING keeps it decided once. -/
theorem single_step {R : OpenReview} {req : ι → DecisionRequest} {row : ReviewTask}
    (σ : Config ι (Table ReviewTask) (Phase Change DecisionResponse)) (i : ι)
    (h : Single R req row σ) (hguard : CommitsPending R σ i) :
    ∃ row', Single R req row' (sys R req σ i) := by
  have hother : ∀ {j}, j ≠ i → (sys R req σ i).pc j = σ.pc j := fun hj => Txn.sched_pc_other σ hj
  cases hpc : σ.pc i with
  | done r =>
      rw [step_done hpc]
      exact ⟨row, h⟩
  | idle =>
      have hkept := kept_read h.kept hpc
      have hsuccess := succeeded_read h.kept hpc
      refine ⟨row, hkept, ?_, ?_⟩
      · intro j k hj hk
        exact h.atMostOne j k ((hsuccess j).mp hj) ((hsuccess k).mp hk)
      · intro j hj
        exact h.recorded j ((hsuccess j).mp hj)
  | ready u =>
      obtain ⟨hkept, hsucc, -⟩ := kept_commit h.kept hpc
      have hpending : row.status = .pending := by
        have hp := hguard u hpc
        rw [h.kept.stored] at hp
        exact Option.some.inj hp
      obtain ⟨hrow, hnone⟩ := h.kept.untouched hpending
      have honly : ∀ j, Succeeded DecisionResponse.success ((sys R req σ i).pc j) → j = i := by
        intro j hj
        by_contra hji
        rw [hother hji] at hj
        exact hnone j hj
      obtain ⟨hloaded, hchanged⟩ : u.1 = R.review ∧ u.2 = R.decidedBy (req i) := by
        refine (h.kept.held i u hpc).origin.resolve_right ?_
        rintro ⟨-, -, hdecided⟩
        cases hpending.symm.trans hdecided
      have hwritten : rewriteReview u row = R.decidedBy (req i) := by
        rw [rewriteReview]
        rw [hrow, hloaded, if_pos rfl, hchanged]
        exact write_review_loaded rfl
      refine ⟨_, hkept, ?_, ?_⟩
      · intro j k hj hk
        rw [honly j hj, honly k hk]
      · intro j hj
        rw [honly j hj]
        exact hwritten

theorem decidedOnce_of_commitsPending {R : OpenReview} {req : ι → DecisionRequest}
    {sched : List ι} (h : Along (sys R req) (CommitsPending R) R.opened sched) :
    DecidedOnce R req sched := by
  have hopened : Single R req R.review R.opened :=
    ⟨kept_opened R req, fun _ _ hi => hi.elim, fun _ hi => hi.elim⟩
  obtain ⟨row, hsingle⟩ := run_invariant_along
    (I := fun σ => ∃ row, Single R req row σ)
    (fun σ i hσ hg => single_step σ i hσ.choose_spec hg) ⟨_, hopened⟩ h
  refine ⟨hsingle.atMostOne, hsingle.kept.refused, ?_⟩
  intro i hi
  refine ⟨row, hsingle.kept.stored, ?_⟩
  rw [hsingle.recorded i hi]
  exact ⟨rfl, rfl, rfl, rfl⟩

theorem commitsPending_of_decidedOnce {R : OpenReview} {req : ι → DecisionRequest}
    {sched : List ι} (h : DecidedOnce R req sched) :
    Along (sys R req) (CommitsPending R) R.opened sched := by
  refine along_of_forall_at ?_
  intro pre i post heq u hu
  obtain ⟨row, hkept⟩ := kept_run R req pre
  rw [hkept.stored, Option.map_some]
  cases hstatus : row.status with
  | pending => rfl
  | decided =>
      -- somebody has decided it already, and this commit reports success too
      obtain ⟨j, hj⟩ := hkept.credited hstatus
      have hne : j ≠ i := by
        rintro rfl
        rw [hu] at hj
        exact hj
      obtain ⟨-, hi, -⟩ := kept_commit hkept hu
      have hfinal : ∀ k, Succeeded DecisionResponse.success
          ((sys R req (run (sys R req) R.opened pre) i).pc k) →
          Succeeded DecisionResponse.success ((run (sys R req) R.opened sched).pc k) := by
        intro k hk
        rw [heq, run_append, run_cons]
        exact succeeded_run hk post
      have hj' : Succeeded DecisionResponse.success
          ((sys R req (run (sys R req) R.opened pre) i).pc j) := by
        have hsame : (sys R req (run (sys R req) R.opened pre) i).pc j
            = (run (sys R req) R.opened pre).pc j := Txn.sched_pc_other _ hne
        rw [hsame]
        exact hj
      exact absurd (h.atMostOne j i (hfinal j hj') (hfinal i hi)) hne

/-- **DECIDED ONCE EXACTLY WHEN** every commit finds the review still PENDING;
    for any requests and any schedule. -/
theorem decidedOnce_iff (R : OpenReview) (req : ι → DecisionRequest) (sched : List ι) :
    DecidedOnce R req sched ↔ Along (sys R req) (CommitsPending R) R.opened sched :=
  ⟨commitsPending_of_decidedOnce, decidedOnce_of_commitsPending⟩

/-- A table with one PENDING review. -/
def oneReview : OpenReview where
  reviews := ⟨[{ reviewId := "REVIEW-1", caseId := "1", reasonCodes := []
                 assignedRole := "retail-operations" }], List.pairwise_singleton _ _⟩
  review := { reviewId := "REVIEW-1", caseId := "1", reasonCodes := []
              assignedRole := "retail-operations" }
  stored := rfl
  pending := rfl

/-- Two reviewers who disagree. -/
def verdicts : Bool → DecisionRequest
  | true => { reviewId := "REVIEW-1", principal := ⟨"alice", "retail-operations"⟩
              decision := "APPROVE", idempotencyKey := "k-alice", now := 1 }
  | false => { reviewId := "REVIEW-1", principal := ⟨"bob", "retail-operations"⟩
               decision := "REJECT", idempotencyKey := "k-bob", now := 2 }

/-- Both read the review as PENDING, and both report success. -/
theorem both_decide :
    ¬ ∀ (R : OpenReview) (req : Bool → DecisionRequest) (sched : List Bool),
      (∀ i j, (req i).idempotencyKey = (req j).idempotencyKey → i = j) →
      DecidedOnce R req sched := by
  intro h
  have honce := h oneReview verdicts [true, false, true, false] (by decide)
  exact absurd (honce.atMostOne true false (by decide) (by decide)) (by decide)

end ReviewRace
