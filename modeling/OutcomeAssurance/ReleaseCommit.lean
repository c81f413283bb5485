import OutcomeAssurance.ReleaseModel

/-! # What a commit does to the release tables

    A unit of work without inserts rewrites the stored rows one by one
    (`Work.effect`) and appends its event; it is refused only when a promotion
    meets another ACTIVE row, or the event's idempotency key is taken. -/

namespace ReleaseCommit

open KeyedTable Interleaving Runs ReleaseModel

/-! ## Reading the tables -/

theorem getActiveRow_eq_some {db : Db} {r : ModelRelease} :
    getActiveRow db = some r ↔ r ∈ db.releases.rows ∧ r.status = .active := by
  constructor
  · intro h
    exact ⟨List.mem_of_find?_eq_some h, by simpa using List.find?_some h⟩
  · rintro ⟨hr, hs⟩
    cases hget : getActiveRow db with
    | none => exact absurd hs (by simpa using List.find?_eq_none.mp hget r hr)
    | some r' =>
        have hr' : r' ∈ db.releases.rows := List.mem_of_find?_eq_some hget
        have hs' : r'.status = .active := by simpa using List.find?_some hget
        rw [Table.eq_of_clash hr' hr (Or.inr ⟨hs', hs⟩)]

/-- The ACTIVE row is found under its own id. -/
theorem get_of_getActiveRow {db : Db} {r : ModelRelease} (h : getActiveRow db = some r) :
    db.releases.get r.releaseId = some r :=
  Table.get_key (getActiveRow_eq_some.mp h).1

theorem status_of_getActiveRow {db : Db} {r : ModelRelease} (h : getActiveRow db = some r) :
    r.status = .active :=
  (getActiveRow_eq_some.mp h).2

theorem id_of_get {db : Db} {id : String} {r : ModelRelease}
    (h : db.releases.get id = some r) : r.releaseId = id :=
  Table.key_of_get h

theorem statusOf_eq_some {db : Db} {id : String} {st : ModelReleaseStatus} :
    statusOf db id = some st ↔ ∃ r, db.releases.get id = some r ∧ r.status = st := by
  simp [statusOf]

/-- A release is ACTIVE exactly when it is the ACTIVE row. -/
theorem statusOf_active {db : Db} {id : String} :
    statusOf db id = some .active ↔ (getActiveRow db).map (·.releaseId) = some id := by
  rw [statusOf_eq_some, Option.map_eq_some_iff]
  constructor
  · rintro ⟨r, hr, hs⟩
    exact ⟨r, getActiveRow_eq_some.mpr ⟨Table.mem_of_get hr, hs⟩, id_of_get hr⟩
  · rintro ⟨r, hr, rfl⟩
    exact ⟨r, get_of_getActiveRow hr, status_of_getActiveRow hr⟩

theorem previousOf_eq_join (db : Db) (id : String) :
    previousOf db id = ((db.releases.get id).map (·.previousReleaseId)).join := by
  rw [previousOf]
  cases db.releases.get id <;> rfl

theorem findRollbackEvent_eq_some {db : Db} {k : String} {e : AuditEvent} :
    findRollbackEvent db k = some e ↔
      e ∈ db.audit.rows ∧ e.eventType = .rolledBack ∧ e.idempotencyKey = some k := by
  constructor
  · intro h
    exact ⟨List.mem_of_find?_eq_some h, by simpa using List.find?_some h⟩
  · rintro ⟨he, ht, hk⟩
    cases hfind : findRollbackEvent db k with
    | none =>
        have hno : e.eventType = .rolledBack → ¬ e.idempotencyKey = some k := by
          simpa using List.find?_eq_none.mp hfind e he
        exact absurd hk (hno ht)
    | some e' =>
        have he' : e' ∈ db.audit.rows := List.mem_of_find?_eq_some hfind
        have hk' : e'.eventType = .rolledBack ∧ e'.idempotencyKey = some k := by
          simpa using List.find?_some hfind
        have hkeyed : e'.idempotencyKey ≠ none := by
          rw [hk'.2]
          exact Option.some_ne_none k
        have hclash : Clash e' e := ⟨hkeyed, hk'.2.trans hk.symm⟩
        rw [Table.eq_of_clash he' he hclash]

theorem findRollbackEvent_eq_none {db : Db} {k : String} :
    findRollbackEvent db k = none ↔
      ∀ e ∈ db.audit.rows, e.eventType = .rolledBack → e.idempotencyKey ≠ some k := by
  simp [findRollbackEvent, List.find?_eq_none]

/-! ## Column writes -/

@[simp] theorem write_releaseId (loaded changed stored : ModelRelease) :
    (ModelRelease.write loaded changed stored).releaseId = stored.releaseId := rfl

/-- Writing the changed columns over the row as it was loaded gives the row as
    it was changed. -/
theorem write_loaded {loaded changed : ModelRelease}
    (h : changed.releaseId = loaded.releaseId) :
    ModelRelease.write loaded changed loaded = changed := by
  cases loaded
  cases changed
  simp only [ModelRelease.write, ite_eq_right_iff, ModelRelease.mk.injEq]
  refine ⟨h.symm, ?_, ?_, ?_, ?_, ?_, ?_, ?_, ?_, ?_, ?_, ?_, ?_⟩ <;> exact fun heq => heq.symm

/-- The statement of one flush, on one stored row. -/
def rewrite (u : ModelRelease × ModelRelease) (r : ModelRelease) : ModelRelease :=
  if r.releaseId = u.1.releaseId then ModelRelease.write u.1 u.2 r else r

@[simp] theorem rewrite_releaseId (u : ModelRelease × ModelRelease) (r : ModelRelease) :
    (rewrite u r).releaseId = r.releaseId := by
  rw [rewrite]
  split <;> rfl

/-- The statements of a unit of work, on one stored row. -/
def effect (w : Work) (r : ModelRelease) : ModelRelease :=
  w.flushes.foldl (fun r u => rewrite u r) r

@[simp] theorem effect_releaseId (w : Work) (r : ModelRelease) :
    (effect w r).releaseId = r.releaseId := by
  rw [effect]
  induction w.flushes generalizing r with
  | nil => rfl
  | cons u us ih => rw [List.foldl_cons, ih, rewrite_releaseId]

theorem flush_rows {db db' : Db} {u : ModelRelease × ModelRelease} (h : db.flush u = some db') :
    db'.releases.rows = db.releases.rows.map (rewrite u) ∧ db'.audit = db.audit := by
  obtain ⟨t, ht, rfl⟩ := Option.map_eq_some_iff.mp h
  exact ⟨Table.accept_eq_some.mp ht, rfl⟩

theorem foldlM_flush_rows {us : List (ModelRelease × ModelRelease)} {db db' : Db}
    (h : us.foldlM Db.flush db = some db') :
    db'.releases.rows = db.releases.rows.map (fun r => us.foldl (fun r u => rewrite u r) r) ∧
      db'.audit = db.audit := by
  induction us generalizing db with
  | nil =>
      have : db = db' := Option.some.inj h
      subst this
      simp
  | cons u us ih =>
      obtain ⟨db₁, h₁, h₂⟩ := Option.bind_eq_some_iff.mp h
      obtain ⟨hr₁, ha₁⟩ := flush_rows h₁
      obtain ⟨hr₂, ha₂⟩ := ih h₂
      refine ⟨?_, ha₂.trans ha₁⟩
      rw [hr₂, hr₁, List.map_map]
      rfl

/-- A commit adds its new rows, rewrites every row and appends its event. -/
theorem commit_all_rows {db db' : Db} {w : Work} (h : db.commit w = some db') :
    db'.releases.rows = (db.releases.rows ++ w.inserts).map (effect w) ∧
      db'.audit.rows = db.audit.rows ++ [w.event] := by
  rw [Db.commit] at h
  obtain ⟨t, ht, h⟩ := Option.bind_eq_some_iff.mp h
  obtain ⟨db₁, h₁, h⟩ := Option.bind_eq_some_iff.mp h
  obtain ⟨a, ha, h⟩ := Option.bind_eq_some_iff.mp h
  have hdb : { db₁ with audit := a } = db' := Option.some.inj h
  subst hdb
  obtain ⟨hr, hau⟩ := foldlM_flush_rows h₁
  have hrows := Table.rows_of_insert ht
  have hevents := Table.rows_of_insert ha
  rw [hau] at hevents
  refine ⟨?_, hevents⟩
  rw [hr]
  show t.rows.map _ = _
  rw [hrows]
  rfl

/-- A commit without inserts rewrites every row and appends its event. -/
theorem commit_rows {db db' : Db} {w : Work} (hw : w.inserts = []) (h : db.commit w = some db') :
    db'.releases.rows = db.releases.rows.map (effect w) ∧
      db'.audit.rows = db.audit.rows ++ [w.event] := by
  obtain ⟨hrows, haudit⟩ := commit_all_rows h
  rw [hw, List.append_nil] at hrows
  exact ⟨hrows, haudit⟩

theorem get_of_commit {db db' : Db} {w : Work} (hw : w.inserts = [])
    (h : db.commit w = some db') (id : String) :
    db'.releases.get id = (db.releases.get id).map (effect w) :=
  Table.get_of_map (effect_releaseId w) (commit_rows hw h).1 id

/-! ## When a commit is accepted -/

/-- A flush is refused only for making two different rows ACTIVE. -/
theorem flush_isSome {db : Db} {u : ModelRelease × ModelRelease} :
    (∃ db', db.flush u = some db') ↔
      ∀ a ∈ db.releases.rows, ∀ b ∈ db.releases.rows, a ≠ b →
        ¬ ((rewrite u a).status = .active ∧ (rewrite u b).status = .active) := by
  have hsome : (∃ db', db.flush u = some db') ↔
      ∃ t, Table.accept (db.releases.rows.map (rewrite u)) = some t := by
    rw [Db.flush]
    constructor
    · rintro ⟨db', h⟩
      obtain ⟨t, ht, -⟩ := Option.map_eq_some_iff.mp h
      exact ⟨t, ht⟩
    · rintro ⟨t, ht⟩
      exact ⟨_, Option.map_eq_some_iff.mpr ⟨t, ht, rfl⟩⟩
  rw [hsome, Table.accept_map_isSome]
  constructor
  · intro h a ha b hb hne hact
    exact h a ha b hb hne (Or.inr hact)
  · intro h a ha b hb hne hclash
    rcases hclash with hid | hact
    · rw [rewrite_releaseId, rewrite_releaseId] at hid
      exact hne (Table.eq_of_clash ha hb (Or.inl hid))
    · exact h a ha b hb hne hact

/-- A flush that makes no row ACTIVE is accepted. -/
theorem flush_isSome_of_demotes {db : Db} {u : ModelRelease × ModelRelease}
    (h : ∀ r ∈ db.releases.rows, (rewrite u r).status = .active → r.status = .active) :
    ∃ db', db.flush u = some db' := by
  refine flush_isSome.mpr ?_
  intro a ha b hb hne hact
  exact hne (Table.eq_of_clash ha hb (Or.inr ⟨h a ha hact.1, h b hb hact.2⟩))

/-- A flush that makes its row ACTIVE is accepted exactly when no other row is. -/
theorem flush_isSome_of_promotes {db : Db} {u : ModelRelease × ModelRelease} {r : ModelRelease}
    (hr : db.releases.get u.1.releaseId = some r) (hact : (rewrite u r).status = .active) :
    (∃ db', db.flush u = some db') ↔
      ∀ a ∈ db.releases.rows, a.releaseId ≠ u.1.releaseId → a.status ≠ .active := by
  have hmem := Table.mem_of_get hr
  have hid : r.releaseId = u.1.releaseId := id_of_get hr
  have hother : ∀ a : ModelRelease, a.releaseId ≠ u.1.releaseId → rewrite u a = a :=
    fun a ha => if_neg ha
  rw [flush_isSome]
  constructor
  · intro h a ha hne hs
    refine h a ha r hmem ?_ ⟨?_, hact⟩
    · intro heq
      exact hne (heq ▸ hid)
    · rw [hother a hne]
      exact hs
  · intro h a ha b hb hne hboth
    have honly : ∀ c ∈ db.releases.rows, (rewrite u c).status = .active →
        c.releaseId = u.1.releaseId := by
      intro c hc hcs
      by_contra hcne
      rw [hother c hcne] at hcs
      exact h c hc hcne hcs
    have hids := (honly a ha hboth.1).trans (honly b hb hboth.2).symm
    exact hne (Table.eq_of_clash ha hb (Or.inl hids))

/-- An event is refused only for an idempotency key that is taken. -/
theorem audit_insert_isSome {t : Table AuditEvent} {e : AuditEvent} :
    (∃ t', t.insert [e] = some t') ↔
      ∀ k, e.idempotencyKey = some k → ∀ a ∈ t.rows, a.idempotencyKey ≠ some k := by
  rw [Table.insert_isSome]
  constructor
  · rintro ⟨-, h⟩ k hk a ha hak
    exact h a ha e List.mem_cons_self ⟨by rw [hak]; exact Option.some_ne_none k, hak.trans hk.symm⟩
  · intro h
    refine ⟨List.pairwise_singleton _ _, ?_⟩
    intro a ha b hb hclash
    rw [List.mem_singleton] at hb
    subst hb
    obtain ⟨hne, heq⟩ := hclash
    obtain ⟨k, hk⟩ := Option.ne_none_iff_exists'.mp hne
    exact h k (heq ▸ hk) a ha hk

/-- A commit without inserts goes through when its flushes do and its event's
    key is free. -/
theorem commit_isSome {db : Db} {w : Work} (hw : w.inserts = []) :
    (∃ db', db.commit w = some db') ↔
      (∃ db', w.flushes.foldlM Db.flush db = some db') ∧
        ∀ k, w.event.idempotencyKey = some k →
          ∀ a ∈ db.audit.rows, a.idempotencyKey ≠ some k := by
  have hinsert : db.releases.insert w.inserts = some db.releases := by
    rw [hw]
    exact Table.accept_eq_some.mpr (List.append_nil _).symm
  have hcommit : db.commit w = (w.flushes.foldlM Db.flush db).bind
      (fun db' => (db'.audit.insert [w.event]).map (fun a => { db' with audit := a })) := by
    rw [Db.commit]
    rw [hinsert]
    show (w.flushes.foldlM Db.flush db).bind _ = _
    congr 1
    funext db₁
    show (db₁.audit.insert [w.event]).bind _ = (db₁.audit.insert [w.event]).map _
    cases db₁.audit.insert [w.event] <;> rfl
  rw [hcommit]
  constructor
  · rintro ⟨db', h⟩
    obtain ⟨db₁, h₁, h₂⟩ := Option.bind_eq_some_iff.mp h
    obtain ⟨a, ha, -⟩ := Option.map_eq_some_iff.mp h₂
    refine ⟨⟨db₁, h₁⟩, ?_⟩
    rw [← (foldlM_flush_rows h₁).2]
    exact audit_insert_isSome.mp ⟨a, ha⟩
  · rintro ⟨⟨db₁, h₁⟩, hkey⟩
    rw [← (foldlM_flush_rows h₁).2] at hkey
    obtain ⟨a, ha⟩ := audit_insert_isSome.mpr hkey
    rw [h₁]
    exact ⟨_, Option.map_eq_some_iff.mpr ⟨a, ha, rfl⟩⟩

/-- The idempotency key of a commit that goes through was free. -/
theorem key_free_of_commit {db db' : Db} {w : Work} (h : db.commit w = some db') {k : String}
    (hk : w.event.idempotencyKey = some k) :
    ∀ a ∈ db.audit.rows, a.idempotencyKey ≠ some k := by
  intro a ha hak
  have hunclashed := db'.audit.unclashed
  rw [(commit_all_rows h).2, List.pairwise_append] at hunclashed
  refine hunclashed.2.2 a ha w.event List.mem_cons_self ⟨?_, hak.trans hk.symm⟩
  rw [hak]
  intro hs
  cases hs

/-- Where a rewritten row points: where it did, or where a change says. -/
theorem effect_previous (w : Work) (r : ModelRelease) :
    (effect w r).previousReleaseId = r.previousReleaseId ∨
      ∃ u ∈ w.flushes, (effect w r).previousReleaseId = u.2.previousReleaseId := by
  rw [effect]
  induction w.flushes generalizing r with
  | nil => exact Or.inl rfl
  | cons u us ih =>
      rw [List.foldl_cons]
      rcases ih (rewrite u r) with hsame | ⟨v, hv, hchanged⟩
      · have hone : (rewrite u r).previousReleaseId = r.previousReleaseId ∨
            (rewrite u r).previousReleaseId = u.2.previousReleaseId := by
          rw [rewrite]
          split
          · show (if _ then r.previousReleaseId else u.2.previousReleaseId) = _ ∨
              (if _ then r.previousReleaseId else u.2.previousReleaseId) = _
            split
            · exact Or.inl rfl
            · exact Or.inr rfl
          · exact Or.inl rfl
        rcases hone with hstored | hwritten
        · exact Or.inl (hsame.trans hstored)
        · exact Or.inr ⟨u, List.mem_cons_self, hsame.trans hwritten⟩
      · exact Or.inr ⟨v, List.mem_cons_of_mem u hv, hchanged⟩

/-! ## Commits that move the ACTIVE status -/

/-- The status a change of status writes. -/
theorem status_of_write {x x' : ModelRelease} (h : x'.status ≠ x.status) (r : ModelRelease) :
    (ModelRelease.write x x' r).status = x'.status := by
  show (if x'.status = x.status then r.status else x'.status) = x'.status
  rw [if_neg h]

theorem rewrite_self {u : ModelRelease × ModelRelease} {r : ModelRelease}
    (h : r.releaseId = u.1.releaseId) : rewrite u r = ModelRelease.write u.1 u.2 r :=
  if_pos h

theorem rewrite_other {u : ModelRelease × ModelRelease} {r : ModelRelease}
    (h : r.releaseId ≠ u.1.releaseId) : rewrite u r = r :=
  if_neg h

/-- A promotion is accepted exactly when no other row is ACTIVE. -/
theorem flush_promotion {db : Db} {y y' : ModelRelease} (hy : y.status ≠ .active)
    (hy' : y'.status = .active) (hrow : ∃ r, db.releases.get y.releaseId = some r) :
    (∃ db', db.flush (y, y') = some db') ↔
      ∀ a ∈ db.releases.rows, a.status = .active → a.releaseId = y.releaseId := by
  obtain ⟨r, hr⟩ := hrow
  have hact : (rewrite (y, y') r).status = .active := by
    rw [rewrite_self (id_of_get hr), status_of_write (by rw [hy']; exact Ne.symm hy), hy']
  rw [flush_isSome_of_promotes hr hact]
  constructor
  · intro h a ha hs
    by_contra hne
    exact h a ha hne hs
  · intro h a ha hne hs
    exact hne (h a ha hs)

/-- A lone promotion goes through when no other row is ACTIVE and the key is
    free. -/
theorem commit_promotion {db : Db} {w : Work} {y y' : ModelRelease} (hins : w.inserts = [])
    (hfl : w.flushes = [(y, y')]) (hy : y.status ≠ .active) (hy' : y'.status = .active)
    (hrow : ∃ r, db.releases.get y.releaseId = some r) :
    (∃ db', db.commit w = some db') ↔
      (∀ a ∈ db.releases.rows, a.status = .active → a.releaseId = y.releaseId) ∧
        ∀ k, w.event.idempotencyKey = some k → ∀ a ∈ db.audit.rows, a.idempotencyKey ≠ some k := by
  have hone : (∃ db', w.flushes.foldlM Db.flush db = some db') ↔
      ∃ db', db.flush (y, y') = some db' := by
    rw [hfl, List.foldlM_cons]
    constructor
    · rintro ⟨db', h⟩
      obtain ⟨db₁, h₁, -⟩ := Option.bind_eq_some_iff.mp h
      exact ⟨db₁, h₁⟩
    · rintro ⟨db', h⟩
      rw [h]
      exact ⟨db', rfl⟩
  rw [commit_isSome hins, hone, flush_promotion hy hy' hrow]

/-- A demotion followed by a promotion goes through when no third row is ACTIVE
    and the key is free. -/
theorem commit_handover {db : Db} {w : Work} {x x' y y' : ModelRelease} (hins : w.inserts = [])
    (hfl : w.flushes = [(x, x'), (y, y')]) (hx : x'.status ≠ x.status)
    (hx' : x'.status ≠ .active) (hy : y.status ≠ .active) (hy' : y'.status = .active)
    (hrow : ∃ r, db.releases.get y.releaseId = some r) :
    (∃ db', db.commit w = some db') ↔
      (∀ a ∈ db.releases.rows, a.status = .active →
        a.releaseId = x.releaseId ∨ a.releaseId = y.releaseId) ∧
        ∀ k, w.event.idempotencyKey = some k → ∀ a ∈ db.audit.rows, a.idempotencyKey ≠ some k := by
  obtain ⟨db₁, h₁⟩ : ∃ db₁, db.flush (x, x') = some db₁ := by
    refine flush_isSome_of_demotes ?_
    intro r _ hact
    by_cases hid : r.releaseId = x.releaseId
    · rw [rewrite_self hid, status_of_write hx] at hact
      exact absurd hact hx'
    · rwa [rewrite_other hid] at hact
  have hrows := (flush_rows h₁).1
  have hrow₁ : ∃ r, db₁.releases.get y.releaseId = some r := by
    obtain ⟨r, hr⟩ := hrow
    refine ⟨rewrite (x, x') r, ?_⟩
    rw [Table.get_of_map (rewrite_releaseId _) hrows, hr, Option.map_some]
  have hfold : (∃ db', w.flushes.foldlM Db.flush db = some db') ↔
      ∃ db', db₁.flush (y, y') = some db' := by
    rw [hfl, List.foldlM_cons, h₁]
    show (∃ db', List.foldlM Db.flush db₁ [(y, y')] = some db') ↔ _
    rw [List.foldlM_cons]
    constructor
    · rintro ⟨db', h⟩
      obtain ⟨db₂, h₂, -⟩ := Option.bind_eq_some_iff.mp h
      exact ⟨db₂, h₂⟩
    · rintro ⟨db', h⟩
      rw [h]
      exact ⟨db', rfl⟩
  -- after the demotion the ACTIVE rows are the others
  have hactive : (∀ a ∈ db₁.releases.rows, a.status = .active → a.releaseId = y.releaseId) ↔
      ∀ a ∈ db.releases.rows, a.status = .active →
        a.releaseId = x.releaseId ∨ a.releaseId = y.releaseId := by
    rw [hrows]
    constructor
    · intro h a ha hs
      by_cases hid : a.releaseId = x.releaseId
      · exact Or.inl hid
      · refine Or.inr (h a (List.mem_map.mpr ⟨a, ha, rewrite_other hid⟩) hs)
    · intro h a ha hs
      obtain ⟨r, hr, rfl⟩ := List.mem_map.mp ha
      by_cases hid : r.releaseId = x.releaseId
      · rw [rewrite_self hid, status_of_write hx] at hs
        exact absurd hs hx'
      · have hid' : r.releaseId ≠ (x, x').1.releaseId := hid
        rw [rewrite_other hid'] at hs ⊢
        exact (h r hr hs).resolve_left hid
  rw [commit_isSome hins, hfold, flush_promotion hy hy' hrow₁, hactive]

/-- Changes of one row that write the same columns over it are one change. -/
theorem flush_congr {db : Db} {u v : ModelRelease × ModelRelease}
    (hid : u.1.releaseId = v.1.releaseId)
    (h : ∀ r, db.releases.get u.1.releaseId = some r →
      ModelRelease.write u.1 u.2 r = ModelRelease.write v.1 v.2 r) :
    db.flush u = db.flush v := by
  rw [Db.flush, Table.update, Db.flush, Table.update]
  have hmap : db.releases.rows.map
      (fun r => if key r = u.1.releaseId then ModelRelease.write u.1 u.2 r else r)
      = db.releases.rows.map
        (fun r => if key r = v.1.releaseId then ModelRelease.write v.1 v.2 r else r) := by
    refine List.map_congr_left ?_
    intro r hr
    rw [← hid]
    by_cases hkey : key r = u.1.releaseId
    · rw [if_pos hkey, if_pos hkey, h r (Table.get_eq_some.mpr ⟨hr, hkey⟩)]
    · rw [if_neg hkey, if_neg hkey]
  rw [hmap]

end ReleaseCommit
