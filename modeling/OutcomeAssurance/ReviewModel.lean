import OutcomeAssurance.Interleaving
import OutcomeAssurance.KeyedTable
import OutcomeAssurance.PyText

/-! # Review tasks and their decision

    `app/reviews.py` and the decision endpoint of `app/api.py`, over the
    `review_tasks` table.  A request loads the review into its session, checks
    the role, calls `decide_review` on the loaded row, and commits the columns
    that changed.  Left out: `created_at`, which no decision reads or writes. -/

namespace ReviewModel

open KeyedTable Interleaving PyText

inductive ReviewStatus where
  | pending | decided
  deriving DecidableEq, Repr

def ReviewStatus.value : ReviewStatus → String
  | .pending => "PENDING"
  | .decided => "DECIDED"

/-- `ReviewTaskORM`. -/
structure ReviewTask where
  reviewId : String
  caseId : String
  status : ReviewStatus := .pending
  reasonCodes : List String
  assignedRole : String
  reviewerId : Option String := none
  reviewerDecision : Option String := none
  reviewerNotes : Option String := none
  decidedAt : Option Nat := none
  deriving DecidableEq, Repr

/-- The primary key is the only constraint. -/
instance : Keyed ReviewTask String where
  Clash a b := a.reviewId = b.reviewId
  decClash _ _ := inferInstanceAs (Decidable (_ = _))
  symm h := Eq.symm h
  key r := r.reviewId
  clash_of_key h := h

/-- `Principal`, as the bearer token resolves to it. -/
structure Principal where
  reviewerId : String
  role : String
  deriving DecidableEq, Repr

/-! ## Deciding a review -/

/-- `ReviewAlreadyDecidedError`. -/
structure ReviewAlreadyDecidedError where
  reviewId : String
  deriving DecidableEq, Repr

def ReviewAlreadyDecidedError.message (e : ReviewAlreadyDecidedError) : String :=
  s!"Review '{e.reviewId}' has already been decided and cannot be re-decided"

/-- The notes a decision stores: what the reviewer wrote, and the key. -/
def recordedNotes (notes : Option String) (idempotencyKey : String) : String :=
  strip (notes.getD "" ++ " [idempotency_key=" ++ idempotencyKey ++ "]")

/-- The replay test: the key occurs somewhere in non-empty notes. -/
def recordsKey (reviewerNotes : Option String) (idempotencyKey : String) : Bool :=
  match reviewerNotes with
  | none => false
  | some notes => notes ≠ "" && occursIn ("idempotency_key=" ++ idempotencyKey) notes

/-- `decide_review`. -/
def decideReview (review : ReviewTask) (reviewerId decision : String) (notes : Option String)
    (idempotencyKey : String) (now : Nat) : Except ReviewAlreadyDecidedError ReviewTask :=
  if review.status = .decided then
    if recordsKey review.reviewerNotes idempotencyKey then .ok review
    else .error ⟨review.reviewId⟩
  else
    .ok { review with
      status := .decided
      reviewerId := some reviewerId
      reviewerDecision := some decision
      reviewerNotes := some (recordedNotes notes idempotencyKey)
      decidedAt := some now }

/-! ## The decision request -/

/-- `ReviewDecisionRequest`, with the review it is posted to, the principal and
    the time of the call. -/
structure DecisionRequest where
  reviewId : String
  principal : Principal
  decision : String
  notes : Option String := none
  idempotencyKey : String
  now : Nat
  deriving DecidableEq, Repr

inductive DecisionResponse where
  | decided (review : ReviewTask)
  | reviewNotFound (reviewId : String)
  | roleNotPermitted (role assignedRole : String)
  | reviewAlreadyDecided (e : ReviewAlreadyDecidedError)
  /-- The row was deleted between the read and the `UPDATE`. -/
  | staleData (reviewId : String)
  deriving DecidableEq, Repr

def DecisionResponse.statusCode : DecisionResponse → Nat
  | .decided _ => 200
  | .reviewNotFound _ => 404
  | .roleNotPermitted _ _ => 403
  | .reviewAlreadyDecided _ => 409
  | .staleData _ => 500

/-- `error_code` and `message` of the error body. -/
def DecisionResponse.error : DecisionResponse → Option (String × String)
  | .decided _ => none
  | .staleData _ => none
  | .reviewNotFound id => some ("REVIEW_NOT_FOUND", s!"No review with id {id}")
  | .roleNotPermitted role assignedRole =>
      some ("ROLE_NOT_PERMITTED",
        s!"Role '{role}' cannot decide a review assigned to '{assignedRole}'")
  | .reviewAlreadyDecided e => some ("REVIEW_ALREADY_DECIDED", e.message)

/-- The request reports success. -/
def DecisionResponse.success (r : DecisionResponse) : Bool := r.statusCode = 200

/-- What a request decides on the row it has loaded, before its commit. -/
def DecisionRequest.decide (req : DecisionRequest) (review : ReviewTask) :
    Except ReviewAlreadyDecidedError ReviewTask :=
  decideReview review req.principal.reviewerId req.decision req.notes req.idempotencyKey req.now

/-- The row as loaded and as changed. -/
abbrev Change := ReviewTask × ReviewTask

/-- `post_review_decision` up to its commit. -/
def DecisionRequest.read (req : DecisionRequest) (reviews : Table ReviewTask) :
    DecisionResponse ⊕ Change :=
  -- the role is looked at before the status of the review
  match reviews.get req.reviewId with
  | none => .inl (.reviewNotFound req.reviewId)
  | some review =>
      if req.principal.role ≠ review.assignedRole then
        .inl (.roleNotPermitted req.principal.role review.assignedRole)
      else
        match req.decide review with
        | .error e => .inl (.reviewAlreadyDecided e)
        | .ok changed => .inr (review, changed)

/-- `UPDATE … SET` of the columns in which `changed` differs from `loaded`. -/
def ReviewTask.write (loaded changed stored : ReviewTask) : ReviewTask where
  reviewId := stored.reviewId
  caseId := if changed.caseId = loaded.caseId then stored.caseId else changed.caseId
  status := if changed.status = loaded.status then stored.status else changed.status
  reasonCodes :=
    if changed.reasonCodes = loaded.reasonCodes then stored.reasonCodes else changed.reasonCodes
  assignedRole :=
    if changed.assignedRole = loaded.assignedRole then stored.assignedRole
    else changed.assignedRole
  reviewerId :=
    if changed.reviewerId = loaded.reviewerId then stored.reviewerId else changed.reviewerId
  reviewerDecision :=
    if changed.reviewerDecision = loaded.reviewerDecision then stored.reviewerDecision
    else changed.reviewerDecision
  reviewerNotes :=
    if changed.reviewerNotes = loaded.reviewerNotes then stored.reviewerNotes
    else changed.reviewerNotes
  decidedAt :=
    if changed.decidedAt = loaded.decidedAt then stored.decidedAt else changed.decidedAt

/-- The statement of a commit, on one stored row. -/
def rewriteReview (u : Change) (r : ReviewTask) : ReviewTask :=
  if r.reviewId = u.1.reviewId then ReviewTask.write u.1 u.2 r else r

@[simp] theorem rewriteReview_reviewId (u : Change) (r : ReviewTask) :
    (rewriteReview u r).reviewId = r.reviewId := by
  rw [rewriteReview]
  split <;> rfl

theorem rewriteReview_caseId {u : Change} (h : u.2.caseId = u.1.caseId) (r : ReviewTask) :
    (rewriteReview u r).caseId = r.caseId := by
  rw [rewriteReview]
  split
  · exact if_pos h
  · rfl

/-- A row that did not change is not written. -/
theorem rewriteReview_unchanged (loaded r : ReviewTask) : rewriteReview (loaded, loaded) r = r := by
  rw [rewriteReview]
  split
  · simp [ReviewTask.write]
  · rfl

/-- `db.commit()` of one changed review. -/
def commitReview (reviews : Table ReviewTask) (u : Change) : Table ReviewTask :=
  reviews.rewrite (rewriteReview u) (fun a b h => by
    change (rewriteReview u a).reviewId = (rewriteReview u b).reviewId at h
    rwa [rewriteReview_reviewId, rewriteReview_reviewId] at h)

theorem get_commitReview (reviews : Table ReviewTask) (u : Change) (id : String) :
    (commitReview reviews u).get id = (reviews.get id).map (rewriteReview u) :=
  Table.get_of_map (rewriteReview_reviewId u) rfl id

/-- The commit of a request and its response, read back from the stored row. -/
def DecisionRequest.commit (req : DecisionRequest) (u : Change) (reviews : Table ReviewTask) :
    DecisionResponse × Table ReviewTask :=
  match (commitReview reviews u).get u.1.reviewId with
  | some stored => (.decided stored, commitReview reviews u)
  | none => (.staleData req.reviewId, reviews)

/-- The decision request as one read and one commit. -/
def decision : Txn DecisionRequest (Table ReviewTask) Change DecisionResponse where
  read req reviews := req.read reviews
  commit req u reviews := req.commit u reviews

/-- Writing the changed columns over the row as it was loaded gives the row as
    it was changed. -/
theorem write_review_loaded {loaded changed : ReviewTask}
    (h : changed.reviewId = loaded.reviewId) :
    ReviewTask.write loaded changed loaded = changed := by
  cases loaded
  cases changed
  simp only [ReviewTask.write, ite_eq_right_iff, ReviewTask.mk.injEq]
  refine ⟨h.symm, ?_, ?_, ?_, ?_, ?_, ?_, ?_, ?_⟩ <;> exact fun heq => heq.symm

/-! ## A request with nothing in between -/

/-- What a decision that is accepted does to the row: a decided row stays, a
    pending one records the decision. -/
theorem decide_ok {req : DecisionRequest} {loaded changed : ReviewTask}
    (h : req.decide loaded = .ok changed) :
    (loaded.status = .decided ∧ changed = loaded) ∨
      (loaded.status = .pending ∧ changed = { loaded with
        status := .decided
        reviewerId := some req.principal.reviewerId
        reviewerDecision := some req.decision
        reviewerNotes := some (recordedNotes req.notes req.idempotencyKey)
        decidedAt := some req.now }) := by
  rw [DecisionRequest.decide, decideReview.eq_def] at h
  cases hstatus : loaded.status with
  | decided =>
      rw [if_pos hstatus] at h
      split at h
      · exact Or.inl ⟨rfl, (Except.ok.inj h).symm⟩
      · cases h
  | pending =>
      rw [if_neg (by rw [hstatus]; intro hs; cases hs)] at h
      exact Or.inr ⟨rfl, (Except.ok.inj h).symm⟩

/-- An accepted decision leaves a decided row, under the ids of the loaded one. -/
theorem decided_of_ok {req : DecisionRequest} {loaded changed : ReviewTask}
    (h : req.decide loaded = .ok changed) :
    changed.status = .decided ∧ changed.reviewId = loaded.reviewId ∧
      changed.caseId = loaded.caseId := by
  rcases decide_ok h with ⟨hstatus, rfl⟩ | ⟨-, rfl⟩
  · exact ⟨hstatus, rfl, rfl⟩
  · exact ⟨rfl, rfl, rfl⟩

theorem decide_of_pending (req : DecisionRequest) {loaded : ReviewTask}
    (h : loaded.status = .pending) : ∃ changed, req.decide loaded = .ok changed := by
  rw [DecisionRequest.decide, decideReview.eq_def, if_neg (by rw [h]; intro hs; cases hs)]
  exact ⟨_, rfl⟩

theorem decide_error {req : DecisionRequest} {loaded : ReviewTask}
    {e : ReviewAlreadyDecidedError} (h : req.decide loaded = .error e) :
    loaded.status = .decided ∧ e = ⟨loaded.reviewId⟩ := by
  cases hstatus : loaded.status with
  | decided =>
      rw [DecisionRequest.decide, decideReview.eq_def, if_pos hstatus] at h
      split at h
      · cases h
      · exact ⟨rfl, (Except.error.inj h).symm⟩
  | pending =>
      obtain ⟨changed, hok⟩ := decide_of_pending req hstatus
      cases h.symm.trans hok

/-- The read of a permitted request, by what it decides. -/
theorem read_permitted {req : DecisionRequest} {reviews : Table ReviewTask}
    {loaded : ReviewTask} (hget : reviews.get req.reviewId = some loaded)
    (hrole : req.principal.role = loaded.assignedRole) :
    (∀ e, req.decide loaded = .error e →
        decision.read req reviews = .inl (.reviewAlreadyDecided e)) ∧
      ∀ changed, req.decide loaded = .ok changed →
        decision.read req reviews = .inr (loaded, changed) := by
  constructor
  · intro e he
    show req.read reviews = _
    rw [DecisionRequest.read, hget]
    show (if _ then _ else _) = _
    rw [if_neg (not_not.mpr hrole), he]
  · intro changed hok
    show req.read reviews = _
    rw [DecisionRequest.read, hget]
    show (if _ then _ else _) = _
    rw [if_neg (not_not.mpr hrole), hok]

theorem read_unpermitted {req : DecisionRequest} {reviews : Table ReviewTask}
    {loaded : ReviewTask} (hget : reviews.get req.reviewId = some loaded)
    (hrole : req.principal.role ≠ loaded.assignedRole) :
    decision.read req reviews
      = .inl (.roleNotPermitted req.principal.role loaded.assignedRole) := by
  show req.read reviews = _
  rw [DecisionRequest.read, hget]
  exact if_pos hrole

/-- A permitted decision writes the row it decides. -/
theorem alone_of_ok {req : DecisionRequest} {reviews : Table ReviewTask}
    {loaded changed : ReviewTask} (hget : reviews.get req.reviewId = some loaded)
    (hrole : req.principal.role = loaded.assignedRole) (hok : req.decide loaded = .ok changed) :
    (commitReview reviews (loaded, changed)).get req.reviewId = some changed ∧
      decision.alone req reviews = (.decided changed, commitReview reviews (loaded, changed)) := by
  have hread := (read_permitted hget hrole).2 changed hok
  have hkey : loaded.reviewId = req.reviewId := Table.key_of_get hget
  have hstored : (commitReview reviews (loaded, changed)).get loaded.reviewId = some changed := by
    rw [get_commitReview, hkey, hget, Option.map_some, rewriteReview, if_pos rfl,
      write_review_loaded (decided_of_ok hok).2.1]
  refine ⟨hkey ▸ hstored, ?_⟩
  rw [(Txn.step_idle_inr hread).2]
  show DecisionRequest.commit req (loaded, changed) reviews = _
  rw [DecisionRequest.commit, hstored]

/-- **A REQUEST ALONE** is refused and changes nothing, or it writes the row it
    decides. -/
theorem decision_alone (req : DecisionRequest) (reviews : Table ReviewTask) :
    (∃ r, decision.alone req reviews = (r, reviews) ∧ r.success = false) ∨
      ∃ loaded changed, reviews.get req.reviewId = some loaded ∧
        req.decide loaded = .ok changed ∧
        (commitReview reviews (loaded, changed)).get req.reviewId = some changed ∧
        decision.alone req reviews
          = (.decided changed, commitReview reviews (loaded, changed)) := by
  cases hget : reviews.get req.reviewId with
  | none =>
      have hread : decision.read req reviews = .inl (.reviewNotFound req.reviewId) := by
        show req.read reviews = _
        rw [DecisionRequest.read, hget]
      exact Or.inl ⟨_, (Txn.step_idle_inl hread).2, rfl⟩
  | some loaded =>
      by_cases hrole : req.principal.role = loaded.assignedRole
      · cases hdecide : req.decide loaded with
        | error e =>
            have hread := (read_permitted hget hrole).1 e hdecide
            exact Or.inl ⟨_, (Txn.step_idle_inl hread).2, rfl⟩
        | ok changed =>
            obtain ⟨hstored, halone⟩ := alone_of_ok hget hrole hdecide
            exact Or.inr ⟨loaded, changed, rfl, hdecide, hstored, halone⟩
      · exact Or.inl ⟨_, (Txn.step_idle_inl (read_unpermitted hget hrole)).2, rfl⟩

end ReviewModel
