import OutcomeAssurance.ReleaseLifecycle

/-! # Who may become ACTIVE — gate passes and approvals along a history

    An activation checks the gate and the approval of its release; a rollback
    checks neither.  An approval is never withdrawn, so the release a rollback
    restores is still approved, but its gate may have been run again since it
    was superseded.  `promotions_vetted_iff` says that this is the only way an
    unvetted release becomes ACTIVE. -/

namespace ReleaseVetting

open KeyedTable Interleaving Runs PointerStack ReleaseModel ReleaseCommit ReleaseSteps
open ReleaseStack ReleaseLifecycle

/-- The verdict an event records for a gate run of a release. -/
def gateVerdict (id : String) (e : AuditEvent) : Option Bool :=
  if e.releaseId = id then
    match e.detail with
    | .gate passed _ => some passed
    | _ => none
  else none

/-- The verdict of the most recent gate run of a release. -/
def lastGateRun (db : Db) (id : String) : Option Bool :=
  db.audit.rows.foldl (fun last e => (gateVerdict id e).or last) none

/-- The most recent gate run passed, and the release says so and is approved. -/
def Vetted (db : Db) (id : String) : Prop :=
  lastGateRun db id = some true ∧
    ∃ r, db.releases.get id = some r ∧ r.gatePassed = some true ∧ r.approvedBy ≠ none

/-- The call changes the status of the release to ACTIVE. -/
def Promotes (db : Db) (c : Call) (id : String) : Prop :=
  statusOf db id ≠ some .active ∧ statusOf (serve db c) id = some .active

/-- Whatever the call promotes is vetted. -/
def VettedStep (db : Db) (c : Call) : Prop :=
  ∀ id, Promotes db c id → Vetted (serve db c) id

/-- The call is no rollback with a fresh key, or the release right below the
    ACTIVE one still has its gate pass. -/
def PassStands (db : Db) : Call → Prop
  | .rollbackActiveRelease _ key _ =>
      findRollbackEvent db key = none → ∀ id, (stackOf db)[1]? = some id →
        (db.releases.get id).map (·.gatePassed) = some (some true)
  | _ => True

/-! ## Approvals, keys and gate verdicts -/

/-- What every serial history keeps of the rows and the audit log. -/
structure Sound (db : Db) : Prop where
  /-- What is or was ACTIVE is approved. -/
  approved : ∀ id r, db.releases.get id = some r →
    r.status = .active ∨ r.status = .superseded → r.approvedBy ≠ none
  /-- Only rollbacks record an idempotency key. -/
  keyed : ∀ e ∈ db.audit.rows, e.idempotencyKey ≠ none → e.eventType = .rolledBack
  /-- The gate column of a release is the verdict of its last gate run. -/
  gated : ∀ id, (db.releases.get id).bind (·.gatePassed) = lastGateRun db id

theorem sound_empty : Sound Db.empty := by
  refine ⟨?_, ?_, ?_⟩
  · intro id r hr
    cases hr
  · intro e he
    cases he
  · intro id
    rfl

theorem lastGateRun_append {db db' : Db} {e : AuditEvent}
    (h : db'.audit.rows = db.audit.rows ++ [e]) (id : String) :
    lastGateRun db' id = (gateVerdict id e).or (lastGateRun db id) := by
  rw [lastGateRun]
  rw [h, List.foldl_append]
  rfl

/-- An event with no gate verdict leaves the last gate run. -/
theorem lastGateRun_append_other {db db' : Db} {e : AuditEvent}
    (h : db'.audit.rows = db.audit.rows ++ [e]) (he : ∀ passed codes, e.detail ≠ .gate passed codes)
    (id : String) : lastGateRun db' id = lastGateRun db id := by
  have hnone : gateVerdict id e = none := by
    rw [gateVerdict]
    split
    · split
      · next passed codes hdetail => exact absurd hdetail (he passed codes)
      · rfl
    · rfl
  rw [lastGateRun_append h, hnone, Option.none_or]

theorem keyed_append {db db' : Db} {e : AuditEvent} (h : Sound db)
    (hrows : db'.audit.rows = db.audit.rows ++ [e])
    (he : e.idempotencyKey ≠ none → e.eventType = .rolledBack) :
    ∀ e' ∈ db'.audit.rows, e'.idempotencyKey ≠ none → e'.eventType = .rolledBack := by
  intro e' he'
  rw [hrows, List.mem_append, List.mem_singleton] at he'
  rcases he' with hold | rfl
  · exact h.keyed e' hold
  · exact he

/-- One written row: the columns `Sound` reads come from it, the other rows
    are as before. -/
theorem Sound.write_one {db db' : Db} {r : ModelRelease} {e : AuditEvent} (h : Sound db)
    (hw : Wrote db db' [r] e)
    (happ : r.status = .active ∨ r.status = .superseded → r.approvedBy ≠ none)
    (hkey : e.idempotencyKey ≠ none → e.eventType = .rolledBack)
    (hgate : r.gatePassed = (gateVerdict r.releaseId e).or (lastGateRun db r.releaseId))
    (hother : e.releaseId = r.releaseId) : Sound db' := by
  refine ⟨?_, keyed_append h hw.audit hkey, ?_⟩
  · intro id x hx
    rw [hw.get_one] at hx
    split at hx
    · rw [← Option.some.inj hx]
      exact happ
    · exact h.approved id x hx
  · intro id
    rw [hw.get_one, lastGateRun_append hw.audit]
    by_cases hid : id = r.releaseId
    · rw [if_pos hid, hid]
      exact hgate
    · rw [if_neg hid, h.gated]
      have hnone : gateVerdict id e = none := by
        rw [gateVerdict]
        rw [if_neg (fun heq => hid (heq.symm.trans hother))]
      rw [hnone, Option.none_or]

/-- Rows rewritten without touching gate and approval keep `Sound`. -/
theorem Sound.rewrite {db db' : Db} {new : List ModelRelease} {e : AuditEvent} (h : Sound db)
    (hw : Wrote db db' new e)
    (hrows : ∀ r ∈ new, ∃ old, db.releases.get r.releaseId = some old ∧
      r.gatePassed = old.gatePassed ∧
      (r.status = .active ∨ r.status = .superseded → r.approvedBy ≠ none))
    (hkey : e.idempotencyKey ≠ none → e.eventType = .rolledBack)
    (hgate : ∀ passed codes, e.detail ≠ .gate passed codes) : Sound db' := by
  have hrow : ∀ id, (∃ r ∈ new, r.releaseId = id ∧ db'.releases.get id = some r) ∨
      db'.releases.get id = db.releases.get id := by
    intro id
    rw [hw.get id]
    cases hfind : new.find? (fun r => decide (r.releaseId = id)) with
    | none => exact Or.inr (Option.none_or)
    | some r =>
        refine Or.inl ⟨r, List.mem_of_find?_eq_some hfind, ?_, Option.some_or⟩
        simpa using List.find?_some hfind
  refine ⟨?_, keyed_append h hw.audit hkey, ?_⟩
  · intro id x hx
    rcases hrow id with ⟨r, hr, -, hget⟩ | hsame
    · obtain ⟨old, -, -, happ⟩ := hrows r hr
      rw [← Option.some.inj (hget.symm.trans hx)]
      exact happ
    · exact h.approved id x (hsame.symm.trans hx)
  · intro id
    rw [lastGateRun_append_other hw.audit hgate, ← h.gated id]
    rcases hrow id with ⟨r, hr, rfl, hget⟩ | hsame
    · obtain ⟨old, hold, hgp, -⟩ := hrows r hr
      rw [hget, hold, Option.bind_some, Option.bind_some, hgp]
    · rw [hsame]

/-- Every call keeps `Sound`. -/
theorem sound_step {db : Db} {stk : List String} (hstk : Stacked db stk) (h : Sound db)
    (c : Call) : Sound (serve db c) := by
  obtain ⟨o, hserved⟩ := served_serve db c
  generalize serve db c = db' at hserved ⊢
  cases hserved with
  | raised e => exact h
  | replayed hevent => exact h
  | @registered id _ _ _ _ hnew hwrote =>
      refine h.write_one hwrote ?_ (fun hk => absurd rfl hk) ?_ rfl
      · rintro (hs | hs) <;> cases hs
      · have hnone := h.gated id
        rw [hnew] at hnone
        show none = (gateVerdict id _).or (lastGateRun db id)
        rw [← hnone]
        simp [gateVerdict, registerWork]
  | @gated id _ r reasons _ hget _ hwrote =>
      refine h.write_one hwrote ?_ (fun hk => absurd rfl hk) ?_ rfl
      · exact h.approved id r hget
      · simp [gateVerdict, gateWork]
  | @approved id _ _ r _ hget _ hwrote =>
      refine h.write_one hwrote ?_ (fun hk => absurd rfl hk) ?_ rfl
      · intro _ hs
        cases hs
      · have hrid := id_of_get hget
        subst hrid
        have hgate := h.gated r.releaseId
        rw [hget] at hgate
        show r.gatePassed = (gateVerdict r.releaseId _).or (lastGateRun db r.releaseId)
        rw [← hgate]
        simp [gateVerdict, approveWork]
  | @activated id activatedBy now r _ hget hok hwrote =>
      have hrid := id_of_get hget
      subst hrid
      have hev : (activateWork r (getActiveRow db) activatedBy now).event.idempotencyKey = none ∧
          (activateWork r (getActiveRow db) activatedBy now).event.detail = .empty := by
        simp only [activateWork]
        cases getActiveRow db <;> exact ⟨rfl, rfl⟩
      refine h.rewrite hwrote ?_ ?_ ?_
      · intro x hx
        rcases List.mem_cons.mp hx with rfl | hx
        · exact ⟨r, hget, rfl, fun _ => (activationRefusal_eq_none.mp hok).2.2⟩
        · obtain ⟨cur, hcur, rfl⟩ := Option.map_eq_some_iff.mp (Option.mem_toList.mp hx)
          have hcget := get_of_getActiveRow hcur
          refine ⟨cur, hcget, rfl, fun _ => ?_⟩
          exact h.approved _ cur hcget (Or.inl (status_of_getActiveRow hcur))
      · intro hne
        exact absurd hev.1 hne
      · intro passed codes hgate
        cases hev.2.symm.trans hgate
  | @rolledBack _ _ _ current previous previousId _ hevent hactive hprev hget hwrote =>
      have hpid := id_of_get hget
      subst hpid
      obtain ⟨hne, hsup⟩ := hstk.below_top hactive hprev hget
      rw [if_neg hne] at hwrote
      refine h.rewrite hwrote ?_ (fun _ => rfl) (fun _ _ hd => by cases hd)
      intro x hx
      rcases List.mem_cons.mp hx with rfl | hx
      · exact ⟨previous, hget, rfl, fun _ => h.approved _ previous hget (Or.inr hsup)⟩
      · rw [List.mem_singleton.mp hx]
        refine ⟨current, get_of_getActiveRow hactive, rfl, ?_⟩
        rintro (hs | hs) <;> cases hs

/-! ## Rollbacks that are possible succeed -/

/-- A rollback with a fresh key and a release below the ACTIVE one commits. -/
theorem rollback_commits {db : Db} {stk : List String} (hstk : Stacked db stk) (h : Sound db)
    (activatedBy : String) {key : String} (now : Nat) {current previous : ModelRelease}
    (hevent : findRollbackEvent db key = none) (hactive : getActiveRow db = some current)
    (hprev : current.previousReleaseId = some previous.releaseId)
    (hget : db.releases.get previous.releaseId = some previous) :
    ∃ db', db.commit (rollbackWork current previous activatedBy key now) = some db' := by
  obtain ⟨hne, hsup⟩ := hstk.below_top hactive hprev hget
  have hfl : (rollbackWork current previous activatedBy key now).flushes =
      [(current, revoked current now), (previous, restored previous activatedBy now)] := by
    simp [rollbackWork, hne]
  have hstatus := status_of_getActiveRow hactive
  refine (commit_handover rfl hfl ?_ (fun hs => by cases hs) ?_ rfl ⟨previous, hget⟩).mpr ⟨?_, ?_⟩
  · rw [hstatus]
    intro hs
    cases hs
  · rw [hsup]
    intro hs
    cases hs
  · intro a ha hs
    have hac := getActiveRow_eq_some.mpr ⟨ha, hs⟩
    rw [hactive] at hac
    exact Or.inl (by rw [Option.some.inj hac])
  · intro k hk a ha hak
    obtain rfl : key = k := Option.some.inj hk
    exact findRollbackEvent_eq_none.mp hevent a ha
      (h.keyed a ha (by rw [hak]; exact Option.some_ne_none _)) hak

/-- With two releases on the stack a fresh key rolls back to the second. -/
theorem rollback_returns {db : Db} {x y : String} {rest : List String}
    (hstk : Stacked db (x :: y :: rest)) (h : Sound db) (activatedBy : String) {key : String}
    (now : Nat) (hevent : findRollbackEvent db key = none) :
    ((Call.rollbackActiveRelease activatedBy key now).exec db).1 = .returned y := by
  have hhead := hstk.head
  rw [List.head?_cons] at hhead
  obtain ⟨current, hactive, rfl⟩ := Option.map_eq_some_iff.mp hhead
  obtain ⟨previous, hget, -⟩ := statusOf_eq_some.mp ((hstk.superseded y).mpr List.mem_cons_self)
  have hyid := id_of_get hget
  subst hyid
  have hprev : current.previousReleaseId = some previous.releaseId := by
    obtain ⟨below, hbelow, hpointer⟩ := hstk.active_on_top hactive
    obtain rfl := (List.cons.inj hbelow).2
    exact hpointer
  obtain ⟨db', hcommit⟩ := rollback_commits hstk h activatedBy now hevent hactive hprev hget
  rw [exec_of_inr (w := rollbackWork current previous activatedBy key now) (by
    simp only [Call.read, hevent, hactive, hprev, hget]), commit_of_some hcommit,
    result_of_rollback]

/-! ## Promotions -/

/-- An ACTIVE release is vetted when its gate column says passed. -/
theorem vetted_of_active {db : Db} (h : Sound db) {id : String}
    (hact : statusOf db id = some .active) :
    Vetted db id ↔ (db.releases.get id).map (·.gatePassed) = some (some true) := by
  obtain ⟨r, hr, hs⟩ := statusOf_eq_some.mp hact
  have hgate := h.gated id
  rw [hr, Option.bind_some] at hgate
  rw [hr, Option.map_some, Option.some.injEq]
  constructor
  · rintro ⟨hlast, -⟩
    rw [hgate, hlast]
  · intro hpass
    exact ⟨hgate ▸ hpass, r, hr, hpass, h.approved id r hr (Or.inl hs)⟩

/-- What a call promotes is the new top of the stack. -/
theorem Promotes.head {db : Db} {stk : List String} (h : Stacked db stk) {c : Call} {id : String}
    (hp : Promotes db c id) :
    stk.head? ≠ some id ∧ (stackAfter db stk c).head? = some id :=
  ⟨fun heq => hp.1 ((h.active id).mpr heq), ((stacked_step h c).active id).mp hp.2⟩

/-- A call that leaves the stack promotes nothing. -/
theorem vettedStep_of_same {db : Db} {stk : List String} (h : Stacked db stk) {c : Call}
    (hsame : stackAfter db stk c = stk) : VettedStep db c := by
  intro id hp
  obtain ⟨hne, heq⟩ := hp.head h
  rw [hsame] at heq
  exact absurd heq hne

/-- **ACTIVATION VETS** what it promotes. -/
theorem vettedStep_of_activate {db : Db} {stk : List String} (hstk : Stacked db stk)
    (h : Sound db) (id activatedBy : String) (now : Nat) :
    VettedStep db (.activateRelease id activatedBy now) := by
  intro id' hp
  have hsound := sound_step hstk h (.activateRelease id activatedBy now)
  have hact := hp.2
  refine (vetted_of_active hsound hact).mpr ?_
  obtain ⟨hne, hhead⟩ := hp.head hstk
  have hserved := served db (.activateRelease id activatedBy now)
  change Served db _ _ (serve db (.activateRelease id activatedBy now)) at hserved
  generalize serve db (.activateRelease id activatedBy now) = db' at hserved hact ⊢
  simp only [stackAfter] at hhead
  generalize ((Call.activateRelease id activatedBy now).exec db).1 = o at hserved hhead
  cases hserved with
  | raised e => exact absurd hhead hne
  | @activated _ _ _ r _ hget hok hwrote =>
      obtain rfl : id = id' := Option.some.inj hhead
      obtain rfl : r.releaseId = id := id_of_get hget
      have hrow := hwrote.get_head
      rw [promoted_releaseId] at hrow
      rw [hrow]
      exact congrArg some (activationRefusal_eq_none.mp hok).2.1

/-- The gate column of the release a rollback restores is the one it had. -/
theorem gate_of_restored {db : Db} {stk : List String} (hstk : Stacked db stk)
    {activatedBy key x : String} {now : Nat} (hfresh : findRollbackEvent db key = none)
    (hret : ((Call.rollbackActiveRelease activatedBy key now).exec db).1 = .returned x) :
    ((serve db (.rollbackActiveRelease activatedBy key now)).releases.get x).map (·.gatePassed)
      = (db.releases.get x).map (·.gatePassed) := by
  obtain ⟨current, previous, hactive, rfl, hprev, hget, hwrote⟩ :=
    rollback_of_returned hfresh hret
  rw [if_neg (hstk.below_top hactive hprev hget).1] at hwrote
  have hrow := hwrote.get_head
  rw [restored_releaseId] at hrow
  rw [hrow, hget]
  rfl

/-- A rollback vets what it promotes exactly when the release below the ACTIVE
    one still has its gate pass. -/
theorem vettedStep_of_rollback {db : Db} {stk : List String} (hstk : Stacked db stk)
    (h : Sound db) (activatedBy key : String) (now : Nat) :
    VettedStep db (.rollbackActiveRelease activatedBy key now) ↔
      PassStands db (.rollbackActiveRelease activatedBy key now) := by
  have hsound := sound_step hstk h (.rollbackActiveRelease activatedBy key now)
  show _ ↔ (findRollbackEvent db key = none → ∀ id, (stackOf db)[1]? = some id → _)
  rw [hstk.stackOf_eq]
  constructor
  · intro hvet hfresh id hid
    obtain ⟨x, y, rest, rfl⟩ : ∃ x y rest, stk = x :: y :: rest := by
      rcases stk with _ | ⟨x, _ | ⟨y, rest⟩⟩
      · cases hid
      · cases hid
      · exact ⟨x, y, rest, rfl⟩
    obtain rfl : y = id := Option.some.inj hid
    have hret := rollback_returns hstk h activatedBy now hfresh
    have hpop : stackAfter db (x :: y :: rest) (.rollbackActiveRelease activatedBy key now)
        = y :: rest := by
      rw [stackAfter_rollback hret]
      exact if_pos hfresh
    have hactive : statusOf (serve db (.rollbackActiveRelease activatedBy key now)) y
        = some .active := by
      rw [(stacked_step hstk _).active, hpop]
      rfl
    have hbelow : statusOf db y ≠ some .active := by
      rw [(hstk.superseded y).mpr List.mem_cons_self]
      intro hs
      cases hs
    rw [← gate_of_restored hstk hfresh hret]
    exact (vetted_of_active hsound hactive).mp (hvet y ⟨hbelow, hactive⟩)
  · intro hpass id hp
    obtain ⟨hne, hhead⟩ := hp.head hstk
    refine (vetted_of_active hsound hp.2).mpr ?_
    cases ho : ((Call.rollbackActiveRelease activatedBy key now).exec db).1 with
    | raised e =>
        rw [stackAfter_raised ho] at hhead
        exact absurd hhead hne
    | returned x =>
        rw [stackAfter_rollback ho] at hhead
        by_cases hfresh : findRollbackEvent db key = none
        · obtain ⟨current, previous, hactive, rfl, hprev, hget, -⟩ :=
            rollback_of_returned hfresh ho
          obtain ⟨rest, rfl⟩ := hstk.top_two hactive hprev
          rw [if_pos hfresh] at hhead
          obtain rfl : previous.releaseId = id := Option.some.inj hhead
          rw [gate_of_restored hstk hfresh ho]
          exact hpass hfresh _ rfl
        · rw [if_neg hfresh] at hhead
          exact absurd hhead hne

theorem vettedStep_iff {db : Db} {stk : List String} (hstk : Stacked db stk) (h : Sound db)
    (c : Call) : VettedStep db c ↔ PassStands db c := by
  cases c with
  | registerCandidate | runReleaseGate | approveRelease =>
      exact iff_of_true (vettedStep_of_same hstk rfl) trivial
  | activateRelease id activatedBy now =>
      exact iff_of_true (vettedStep_of_activate hstk h id activatedBy now) trivial
  | rollbackActiveRelease activatedBy key now =>
      exact vettedStep_of_rollback hstk h activatedBy key now

/-- **EVERYTHING PROMOTED IS VETTED**, along a serial history, exactly when no
    rollback with a fresh key finds below the ACTIVE release one whose gate
    pass has been withdrawn. -/
theorem promotions_vetted_iff (calls : List Call) :
    Along serve VettedStep Db.empty calls ↔ Along serve PassStands Db.empty calls := by
  refine along_congr (I := fun db => (∃ stk, Stacked db stk) ∧ Sound db) ?_ ?_
    ⟨⟨[], stacked_empty⟩, sound_empty⟩ calls
  · rintro db c ⟨⟨stk, hstk⟩, hsound⟩
    exact ⟨⟨_, stacked_step hstk c⟩, sound_step hstk hsound c⟩
  · rintro db c ⟨⟨stk, hstk⟩, hsound⟩
    exact vettedStep_iff hstk hsound c

/-- The superseded release `a` fails a second gate run. -/
def regated : List Call :=
  released "a" ++ released "b" ++ [.runReleaseGate "a" (fun _ => .tokens [])]

/-- A rollback then makes it ACTIVE. -/
theorem rollback_restores_failed_gate :
    ¬ ∀ calls : List Call, Along serve VettedStep Db.empty calls := by
  intro h
  have hrun := h (regated ++ [.rollbackActiveRelease "operator" "incident" 1])
  have hvetted : Vetted _ "a" := hrun.at "a" ⟨by decide, by decide⟩
  exact absurd hvetted.1 (by decide)

end ReleaseVetting
