import OutcomeAssurance.RouterCalls

/-! # Why a request was answered as it was

    In any interleaving of requests, each answer of the streaming endpoint has
    its reason in the history: in the bucket and the slots that the request
    found when it came in, and in what ended its wait. -/

namespace RouterAnswers

open ConditionQueue RouterCalls Runs Streaming StreamRouter
open RateLimiter hiding Call step
open SlotLimiter hiding Event step Stepped stepped

variable {ι : Type} [DecidableEq ι]

/-! ## Who waits -/

/-- The request waits, and is to stop waiting when its waiter says so. -/
def Awaits (call : Call) (cancelled : Bool) : Prop :=
  ∃ req wait, call = .queued req wait ∧ (cancelled = true ↔ wait ≠ .pending)

/-- Each waiter is that of a request that waits, and of no other. -/
structure InLine (calls : ι → Call) (ws : List (Waiter ι)) : Prop where
  nodup : (ws.map Waiter.task).Nodup
  awaits : ∀ w ∈ ws, Awaits (calls w.task) w.cancelled

variable {calls : ι → Call} {ws : List (Waiter ι)} {w : Waiter ι} {i : ι} {call : Call}

omit [DecidableEq ι] in
theorem mem_notify (h : w ∈ notify ws) :
    ∃ v ∈ ws, v.task = w.task ∧ v.cancelled = w.cancelled := by
  by_cases hsleeping : Sleeping ws
  · obtain ⟨before, v, after, rfl, -, hchange⟩ :=
      changeFirst_of_exists (f := fun w : Waiter ι => { w with notified := true }) hsleeping
    rw [notify, hchange] at h
    rcases List.mem_append.mp h with hbefore | hrest
    · exact ⟨w, List.mem_append_left _ hbefore, rfl, rfl⟩
    · rcases List.mem_cons.mp hrest with rfl | hafter
      · exact ⟨v, List.mem_append_right _ List.mem_cons_self, rfl, rfl⟩
      · exact ⟨w, List.mem_append_right _ (List.mem_cons_of_mem _ hafter), rfl, rfl⟩
  · rw [notify_of_not_sleeping hsleeping] at h
    exact ⟨w, h, rfl, rfl⟩

omit [DecidableEq ι] in
theorem InLine.notify (h : InLine calls ws) : InLine calls (notify ws) where
  nodup := by
    rw [tasks_notify]
    exact h.nodup
  awaits := by
    intro w hw
    obtain ⟨v, hv, htask, hcancelled⟩ := mem_notify hw
    rw [← htask, ← hcancelled]
    exact h.awaits v hv

theorem InLine.depart (h : InLine calls ws) (i : ι) : InLine calls (depart i ws) where
  nodup := h.nodup.sublist (tasks_depart i ws)
  awaits := fun w hw => h.awaits w (List.eraseP_sublist.subset hw)

/-- Who departs was there once. -/
theorem InLine.departed (h : InLine calls ws) (hw : waiterOf i ws = some w) :
    i ∉ (ConditionQueue.depart i ws).map Waiter.task := by
  obtain ⟨before, after, rfl, hdepart, -⟩ := split_of_waiterOf hw
  have htask : w.task = i := task_of_waiterOf hw
  have hnodup := h.nodup
  rw [List.map_append, List.map_cons, htask] at hnodup
  rw [hdepart, List.map_append]
  exact (List.nodup_cons.mp (List.nodup_middle.mp hnodup)).1

/-- A request that is not in line comes to something else. -/
theorem InLine.set (h : InLine calls ws) (hi : i ∉ ws.map Waiter.task) (call : Call) :
    InLine (fun j => if j = i then call else calls j) ws where
  nodup := h.nodup
  awaits := by
    intro w hw
    have hne : w.task ≠ i := fun heq => hi (heq ▸ List.mem_map_of_mem hw)
    rw [if_neg hne]
    exact h.awaits w hw

/-- A request takes its place behind the others. -/
theorem InLine.join (h : InLine calls ws) (hi : i ∉ ws.map Waiter.task)
    (req : GenerationRequest) :
    InLine (fun j => if j = i then .queued req .pending else calls j) (ws ++ [{ task := i }]) where
  nodup := by
    rw [List.map_append, List.map_singleton, ← List.concat_eq_append]
    exact h.nodup.concat hi
  awaits := by
    intro w hw
    rcases List.mem_append.mp hw with hold | hnew
    · exact (h.set hi (.queued req .pending)).awaits w hold
    · obtain rfl := List.mem_singleton.mp hnew
      rw [if_pos rfl]
      exact ⟨req, .pending, rfl, iff_of_false Bool.false_ne_true fun hne => hne rfl⟩

/-- A wait is to end. -/
theorem InLine.cancel (h : InLine calls ws) (req : GenerationRequest) {wait : Wait}
    (hwait : wait ≠ .pending) :
    InLine (fun j => if j = i then .queued req wait else calls j) (cancel i ws) := by
  cases hw : waiterOf i ws with
  | none =>
      rw [cancel_of_none hw]
      exact h.set (not_mem_tasks hw) _
  | some w =>
      refine ⟨by rw [tasks_cancel hw]; exact h.nodup, ?_⟩
      have hdeparted := h.departed hw
      obtain ⟨before, after, rfl, hdepart, hcancel⟩ := split_of_waiterOf hw
      have htask : w.task = i := task_of_waiterOf hw
      rw [hdepart] at hdeparted
      have hothers := (h.depart i).set (hdepart ▸ hdeparted) (.queued req wait)
      rw [hdepart] at hothers
      rw [hcancel]
      intro v hv
      rcases List.mem_append.mp hv with hbefore | hrest
      · exact hothers.awaits v (List.mem_append_left _ hbefore)
      · rcases List.mem_cons.mp hrest with rfl | hafter
        · rw [if_pos htask]
          exact ⟨req, wait, rfl, iff_of_true rfl hwait⟩
        · exact hothers.awaits v (List.mem_append_right _ hafter)

variable {c : Config} {r r' : Router ι}

/-- The waiters of the router are in line. -/
def Lined (r : Router ι) : Prop := InLine r.calls r.serving.limiter.waiters

/-- A request looks for a slot, once or again. -/
theorem lined_waitFor (h : InLine r.calls ws) (hi : i ∉ ws.map Waiter.task) (l : Limits)
    (req : GenerationRequest) (limiter : ConcurrencyLimiter ι) (hws : limiter.waiters = ws) :
    Lined (r.progress i req .pending (ConcurrencyLimiter.waitFor l limiter i)) := by
  subst hws
  rw [ConcurrencyLimiter.waitFor]
  split
  · exact h.set hi _
  · exact h.join hi req

theorem lined_submit (h : Lined r) (hcall : r.calls i = .absent) (b : Submission) :
    Lined (r.submit c i b) := by
  have hi : i ∉ r.serving.limiter.waiters.map Waiter.task := by
    intro hmem
    obtain ⟨w, hw, rfl⟩ := List.mem_map.mp hmem
    obtain ⟨req, wait, hqueued, -⟩ := h.awaits w hw
    cases hcall.symm.trans hqueued
  have hsubmits := submits c r i b
  generalize r.submit c i b = r' at hsubmits
  cases hsubmits with
  | @looked p buckets _ _ henter =>
      rw [ConcurrencyLimiter.enter] at henter
      split at henter
      · split at henter
        · cases henter
        · obtain rfl := Except.ok.inj henter
          exact lined_waitFor (r := { r with buckets := buckets }) h hi c.limits b.request
            { r.serving.limiter with queued := r.serving.limiter.queued + 1 } rfl
      · obtain rfl := Except.ok.inj henter
        exact h.set hi _
  | _ => exact h.set hi _

theorem lined_resume (h : Lined r) {req : GenerationRequest} {wait : Wait}
    (hcall : r.calls i = .queued req wait) (hw : waiterOf i r.serving.limiter.waiters = some w) :
    Lined (r.progress i req wait (r.serving.limiter.resume c.limits w)) := by
  have htask : w.task = i := task_of_waiterOf hw
  have hdeparted := h.departed hw
  subst htask
  rw [ConcurrencyLimiter.resume]
  split
  · -- the wait was cancelled
    cases wait with
    | pending | expired | cancelled => exact (h.depart _).set hdeparted _
  · next hkept =>
      have hpending : wait = .pending := by
        obtain ⟨req', wait', hqueued, hiff⟩ := h.awaits w (List.mem_of_find?_eq_some hw)
        obtain ⟨-, rfl⟩ := Call.queued.inj (hcall.symm.trans hqueued)
        by_contra hne
        exact hkept (hiff.mpr hne)
      rw [hpending]
      exact lined_waitFor (h.depart _) hdeparted c.limits req
        { r.serving.limiter with waiters := depart w.task r.serving.limiter.waiters } rfl

omit [DecidableEq ι] in
/-- A request that has a response is not in line. -/
theorem InLine.out (h : InLine calls ws) {req : GenerationRequest} {s : Stream} {body : Body}
    (hcall : calls i = .streaming req s body) : i ∉ ws.map Waiter.task := by
  intro hmem
  obtain ⟨w, hw, rfl⟩ := List.mem_map.mp hmem
  obtain ⟨req, wait, hqueued, -⟩ := h.awaits w hw
  cases hcall.symm.trans hqueued

/-- **EVERY EVENT** keeps the line. -/
theorem lined_step (h : Lined r) (e : Event ι) : Lined (StreamRouter.step c r e) := by
  have hoccurs := occurs c r e
  generalize StreamRouter.step c r e = r' at hoccurs
  cases hoccurs with
  | idle => exact h
  | submit hcall b => exact lined_submit h hcall b
  | resume hcall hw hdue => exact lined_resume h hcall hw
  | @expire i req hcall => exact h.cancel req fun hs => by cases hs
  | @cancel i req wait hcall => exact h.cancel req fun hs => by cases hs
  | drive hcall sig =>
      have hset := h.set (h.out hcall)
      rw [Router.drive]
      split
      · exact (hset _).notify
      · dsimp only
        split
        · exact (hset _).notify
        · exact hset _
  | @finalise i req s body hcall =>
      have hset := h.set (h.out hcall)
      cases body with
      | holding =>
          rw [Router.finalise]
          split
          · exact h
          · exact (hset _).notify
      | released => exact hset _
      | dropped => exact h

/-! ## Reasons -/

/-- The tokens that a submission finds in the bucket of its reviewer. -/
def tokens (c : Config) (r : Router ι) (b : Submission) : ℚ :=
  tokensAt c.rateLimits r.buckets b.reviewerId b.now

/-- The submission finds less than a token. -/
structure Refused (c : Config) (r : Router ι) (b : Submission) : Prop where
  fits : ¬ BeyondFloat c.rateLimits.capacity
  none : tokens c r b < 1

/-- The seconds until there is one again. -/
def retryAfter (c : Config) (r : Router ι) (b : Submission) : ℚ :=
  (1 - tokens c r b) / c.rateLimits.refillRate

/-- The submission has a token. -/
structure Admitted (c : Config) (r : Router ι) (b : Submission) : Prop where
  fits : ¬ BeyondFloat c.rateLimits.capacity
  token : 1 ≤ tokens c r b

/-- It has a token and time left. -/
structure Passed (c : Config) (r : Router ι) (b : Submission) : Prop extends
    Admitted c r b where
  inTime : b.late = false

/-- It finds no slot free, but room in the queue. -/
structure Waited (c : Config) (r : Router ι) (b : Submission) : Prop extends Passed c r b where
  full : c.limits.maxInFlight ≤ slots r
  room : r.serving.limiter.queued < c.limits.maxQueued

/-- The wait was ended, if it was. -/
def Interrupted (later : List (Event ι)) (i : ι) : Wait → Prop
  | .pending => True
  | .expired => .expire i ∈ later
  | .cancelled => .cancel i ∈ later

/-- What has become of a request, by the router it was submitted to and the
    events since. -/
inductive Justified (c : Config) (r : Router ι) (i : ι) (b : Submission)
    (later : List (Event ι)) : Call → Prop where
  | rateLimited (h : Refused c r b) (hrate : c.rateLimits.refillRate ≠ 0)
      (hfinite : ¬ BeyondFloat (retryAfter c r b)) :
      Justified c r i b later (.answered (rateLimited ⟨retryAfter c r b⟩))
  | divided (h : Refused c r b) (hrate : c.rateLimits.refillRate = 0) :
      Justified c r i b later (.raised .zeroDivision)
  | capacityOverflowed (h : BeyondFloat c.rateLimits.capacity) :
      Justified c r i b later (.raised .capacityOverflow)
  | retryOverflowed (h : Refused c r b) (hrate : c.rateLimits.refillRate ≠ 0)
      (hinfinite : BeyondFloat (retryAfter c r b)) :
      Justified c r i b later (.raised .retryOverflow)
  | late (h : Admitted c r b) (hlate : b.late = true) :
      Justified c r i b later (.answered queueTimeout)
  | busy (h : Passed c r b) (hfull : c.limits.maxInFlight ≤ slots r)
      (hqueue : c.limits.maxQueued ≤ r.serving.limiter.queued) :
      Justified c r i b later (.answered (serverBusy ⟨slots r, r.serving.limiter.queued⟩))
  | waits {wait : Wait} (h : Waited c r b) (hwait : Interrupted later i wait) :
      Justified c r i b later (.queued b.request wait)
  | expired (h : Waited c r b) (hwait : Interrupted later i .expired) :
      Justified c r i b later (.answered queueTimeout)
  | cancelled (h : Waited c r b) (hwait : Interrupted later i .cancelled) :
      Justified c r i b later .cancelled
  | served {s : Stream} {body : Body} (h : Passed c r b)
      (hslot : slots r < c.limits.maxInFlight ∨ Waited c r b ∧ .resume i ∈ later) :
      Justified c r i b later (.streaming b.request s body)

variable {r₀ : Router ι} {b : Submission} {later : List (Event ι)}

omit [DecidableEq ι] in
theorem Interrupted.snoc {wait : Wait} (h : Interrupted later i wait) (e : Event ι) :
    Interrupted (later ++ [e]) i wait := by
  cases wait with
  | pending => trivial
  | expired => exact List.mem_append_left _ h
  | cancelled => exact List.mem_append_left _ h

omit [DecidableEq ι] in
/-- A reason stays a reason. -/
theorem Justified.snoc (h : Justified c r₀ i b later call) (e : Event ι) :
    Justified c r₀ i b (later ++ [e]) call := by
  cases h with
  | rateLimited h hrate hfinite => exact .rateLimited h hrate hfinite
  | divided h hrate => exact .divided h hrate
  | capacityOverflowed h => exact .capacityOverflowed h
  | retryOverflowed h hrate hinfinite => exact .retryOverflowed h hrate hinfinite
  | late h hlate => exact .late h hlate
  | busy h hfull hqueue => exact .busy h hfull hqueue
  | waits h hwait => exact .waits h (hwait.snoc e)
  | expired h hwait => exact .expired h (hwait.snoc e)
  | cancelled h hwait => exact .cancelled h (hwait.snoc e)
  | served h hslot =>
      exact .served h (hslot.imp_right fun hwaited => ⟨hwaited.1, List.mem_append_left _ hwaited.2⟩)

/-! ## When a request comes in -/

/-- What each verdict says of the bucket. -/
theorem tokens_of_verdict {l : RateLimits} {buckets : Buckets} {key : String} {now : ℚ}
    {verdict : Verdict} (h : (check l buckets key now).1 = verdict) :
    match verdict with
    | .admitted => ¬ BeyondFloat l.capacity ∧ 1 ≤ tokensAt l buckets key now
    | .exceeded e => (¬ BeyondFloat l.capacity ∧ tokensAt l buckets key now < 1) ∧
        l.refillRate ≠ 0 ∧ e = ⟨(1 - tokensAt l buckets key now) / l.refillRate⟩
    | .zeroDivision => (¬ BeyondFloat l.capacity ∧ tokensAt l buckets key now < 1) ∧
        l.refillRate = 0
    | .overflow => BeyondFloat l.capacity := by
  rw [check] at h
  by_cases hcapacity : BeyondFloat l.capacity
  · rw [if_pos hcapacity] at h
    subst h
    exact hcapacity
  · rw [if_neg hcapacity, checkTokens] at h
    by_cases htokens : tokensAt l buckets key now < 1
    · rw [if_pos htokens] at h
      by_cases hrate : l.refillRate = 0
      · rw [if_pos hrate] at h
        subst h
        exact ⟨⟨hcapacity, htokens⟩, hrate⟩
      · rw [if_neg hrate] at h
        subst h
        exact ⟨⟨hcapacity, htokens⟩, hrate, rfl⟩
    · rw [if_neg htokens] at h
      subst h
      exact ⟨hcapacity, not_lt.mp htokens⟩

theorem calls_set (r : Router ι) (i : ι) (call : Call) : (r.set i call).calls i = call := if_pos rfl

/-- **THE REASON** of what a submission comes to at once. -/
theorem justified_submit (r : Router ι) (i : ι) (b : Submission) :
    Justified c r i b [] ((r.submit c i b).calls i) := by
  have hsubmits := submits c r i b
  generalize r.submit c i b = r' at hsubmits
  have hadmitted : ∀ {buckets : Buckets},
      check c.rateLimits r.buckets b.reviewerId b.now = (.admitted, buckets) → Admitted c r b := by
    intro buckets hcheck
    have htokens := tokens_of_verdict (congrArg Prod.fst hcheck)
    exact ⟨htokens.1, htokens.2⟩
  cases hsubmits with
  | retryOverflowed hcheck hinfinite =>
      obtain ⟨⟨hfits, hnone⟩, hrate, rfl⟩ := tokens_of_verdict (congrArg Prod.fst hcheck)
      rw [calls_set]
      exact .retryOverflowed ⟨hfits, hnone⟩ hrate hinfinite
  | rateLimited hcheck hfinite =>
      obtain ⟨⟨hfits, hnone⟩, hrate, rfl⟩ := tokens_of_verdict (congrArg Prod.fst hcheck)
      rw [calls_set]
      exact .rateLimited ⟨hfits, hnone⟩ hrate hfinite
  | divided hcheck =>
      obtain ⟨⟨hfits, hnone⟩, hrate⟩ := tokens_of_verdict (congrArg Prod.fst hcheck)
      rw [calls_set]
      exact .divided ⟨hfits, hnone⟩ hrate
  | overflowed hcheck =>
      rw [calls_set]
      exact .capacityOverflowed (tokens_of_verdict (congrArg Prod.fst hcheck))
  | late hcheck hlate =>
      rw [calls_set]
      exact .late (hadmitted hcheck) hlate
  | busy hcheck hlate henter =>
      rw [ConcurrencyLimiter.enter] at henter
      split at henter
      · next hfull =>
          split at henter
          · next hqueue =>
              obtain rfl := Except.error.inj henter
              rw [calls_set]
              exact .busy ⟨hadmitted hcheck, hlate⟩ hfull hqueue
          · cases henter
      · cases henter
  | looked hcheck hlate henter =>
      have hpassed : Passed c r b := ⟨hadmitted hcheck, hlate⟩
      rw [ConcurrencyLimiter.enter] at henter
      split at henter
      · next hfull =>
          split at henter
          · cases henter
          · next hroom =>
              rw [ConcurrencyLimiter.waitFor, if_neg (Int.not_lt.mpr hfull)] at henter
              obtain rfl := Except.ok.inj henter
              show Justified c r i b [] ((Router.set _ i _).calls i)
              rw [calls_set]
              exact .waits ⟨hpassed, hfull, Int.not_le.mp hroom⟩ trivial
      · next hfree =>
          obtain rfl := Except.ok.inj henter
          show Justified c r i b [] ((Router.set _ i _).calls i)
          rw [calls_set]
          exact .served hpassed (.inl (Int.not_le.mp hfree))

/-! ## Afterwards -/

/-- A request that was answered or cancelled, or raised, is over. -/
def Over (call : Call) : Prop := reqOf call = none ∧ call ≠ .absent

/-- No event is left for it. -/
theorem step_of_over {e : Event ι} (h : Over (r.calls e.request)) :
    StreamRouter.step c r e = r := by
  have hoccurs := occurs c r e
  generalize StreamRouter.step c r e = r' at hoccurs
  cases hoccurs with
  | idle => rfl
  | submit hcall b => exact absurd hcall h.2
  | resume hcall | expire hcall | cancel hcall | drive hcall | finalise hcall =>
      cases (congrArg reqOf hcall).symm.trans h.1

/-- An event is of one request. -/
theorem calls_of_other {e : Event ι} (hi : i ≠ e.request) :
    (StreamRouter.step c r e).calls i = r.calls i := by
  obtain ⟨call, -, hcalls⟩ := turns c r e
  rw [hcalls, if_neg hi]

theorem over_step (h : Over (r.calls i)) (e : Event ι) :
    (StreamRouter.step c r e).calls i = r.calls i := by
  by_cases hi : i = e.request
  · subst hi
    rw [step_of_over h]
  · exact calls_of_other hi

/-- **THE ANSWER STANDS**, whatever comes later. -/
theorem over_run (h : Over (r.calls i)) (events : List (Event ι)) :
    (run (StreamRouter.step c) r events).calls i = r.calls i := by
  induction events generalizing r with
  | nil => rfl
  | cons e events ih =>
      have hsame : (StreamRouter.step c r e).calls i = r.calls i := over_step h e
      rw [run_cons, ih (by rw [hsame]; exact h), hsame]

/-- What the end of a wait comes to. -/
theorem calls_progress (r : Router ι) (i : ι) (req : GenerationRequest) (wait : Wait)
    (p : ConcurrencyLimiter ι × Progress) :
    (r.progress i req wait p).calls i =
      match p.2, wait with
      | .entered, _ => .streaming req .start .holding
      | .waiting, _ => .queued req wait
      | .left, .expired => .answered queueTimeout
      | .left, _ => .cancelled := by
  obtain ⟨limiter, progress⟩ := p
  cases progress with
  | entered => exact if_pos rfl
  | waiting => exact if_pos rfl
  | left => cases wait <;> exact if_pos rfl

omit [DecidableEq ι] in
/-- Whoever looks for a slot takes one or goes on waiting. -/
theorem waitFor_progress (l : Limits) (limiter : ConcurrencyLimiter ι) (task : ι) :
    (ConcurrencyLimiter.waitFor l limiter task).2 = .entered ∨
      (ConcurrencyLimiter.waitFor l limiter task).2 = .waiting := by
  rw [ConcurrencyLimiter.waitFor]
  split
  · exact Or.inl rfl
  · exact Or.inr rfl

theorem justified_resume (hlined : Lined r) {req : GenerationRequest} {wait : Wait}
    (hcall : r.calls i = .queued req wait) (hw : waiterOf i r.serving.limiter.waiters = some w)
    (h : Justified c r₀ i b later (.queued req wait)) :
    Justified c r₀ i b (later ++ [.resume i])
      ((r.progress i req wait (r.serving.limiter.resume c.limits w)).calls i) := by
  have hnow : .resume i ∈ later ++ [.resume i] := List.mem_append_right _ List.mem_cons_self
  cases h with
  | waits hwaited hwait =>
      have hended := hwait.snoc (.resume i)
      rw [calls_progress, ConcurrencyLimiter.resume]
      -- a waiter is cancelled exactly when its request is to stop waiting
      by_cases hcancelled : w.cancelled = true
      · rw [if_pos hcancelled]
        obtain ⟨req', wait', hqueued, hiff⟩ := hlined.awaits w (List.mem_of_find?_eq_some hw)
        rw [task_of_waiterOf hw] at hqueued
        obtain ⟨-, rfl⟩ := Call.queued.inj (hcall.symm.trans hqueued)
        cases wait with
        | pending => exact absurd rfl (hiff.mp hcancelled)
        | expired => exact .expired hwaited hended
        | cancelled => exact .cancelled hwaited hended
      · rw [if_neg hcancelled]
        rcases waitFor_progress c.limits _ w.task with hentered | hwaiting
        · rw [hentered]
          exact .served hwaited.toPassed (.inr ⟨hwaited, hnow⟩)
        · rw [hwaiting]
          exact .waits hwaited hended

/-- An event of a request that waits. -/
theorem justified_wait (hlined : Lined r) {e : Event ι} {req : GenerationRequest} {wait : Wait}
    (hcall : r.calls e.request = .queued req wait)
    (h : Justified c r₀ e.request b later (r.calls e.request)) :
    Justified c r₀ e.request b (later ++ [e]) ((StreamRouter.step c r e).calls e.request) := by
  have hsnoc := h.snoc e
  have hwaited : Waited c r₀ b ∧ req = b.request := by
    rw [hcall] at h
    cases h with
    | waits hwaited hwait => exact ⟨hwaited, rfl⟩
  have hnow : e ∈ later ++ [e] := List.mem_append_right _ List.mem_cons_self
  have hoccurs := occurs c r e
  generalize StreamRouter.step c r e = r' at hoccurs
  cases hoccurs with
  | idle => exact hsnoc
  | submit hother b => cases hcall.symm.trans hother
  | resume hother hw hdue => exact justified_resume hlined hother hw (hother ▸ h)
  | expire hother =>
      obtain ⟨rfl, -⟩ := Call.queued.inj (hcall.symm.trans hother)
      rw [Router.interrupt, Event.request, calls_set, hwaited.2]
      exact .waits hwaited.1 hnow
  | cancel hother =>
      obtain ⟨rfl, -⟩ := Call.queued.inj (hcall.symm.trans hother)
      rw [Router.interrupt, Event.request, calls_set, hwaited.2]
      exact .waits hwaited.1 hnow
  | drive hother sig => cases hcall.symm.trans hother
  | finalise hother => cases hcall.symm.trans hother

/-- An event of a request that has a response. -/
theorem streaming_step {e : Event ι} {req : GenerationRequest} {s : Stream} {body : Body}
    (hcall : r.calls e.request = .streaming req s body) :
    ∃ s' body', (StreamRouter.step c r e).calls e.request = .streaming req s' body' := by
  have hoccurs := occurs c r e
  generalize StreamRouter.step c r e = r' at hoccurs
  cases hoccurs with
  | idle => exact ⟨s, body, hcall⟩
  | submit hother | resume hother | expire hother | cancel hother =>
      cases hcall.symm.trans hother
  | drive hother sig =>
      obtain ⟨rfl, rfl, rfl⟩ := Call.streaming.inj (hcall.symm.trans hother)
      rw [Router.drive]
      split
      · exact ⟨_, _, calls_set r _ _⟩
      · dsimp only
        split
        · exact ⟨_, _, calls_set r _ _⟩
        · exact ⟨_, _, calls_set r _ _⟩
  | finalise hother =>
      obtain ⟨rfl, rfl, rfl⟩ := Call.streaming.inj (hcall.symm.trans hother)
      cases body with
      | holding =>
          rw [Router.finalise]
          split
          · exact ⟨_, _, hcall⟩
          · exact ⟨_, _, calls_set r _ _⟩
      | released => exact ⟨_, _, calls_set r _ _⟩
      | dropped => exact ⟨_, _, hcall⟩

/-- **EVERY EVENT** leaves each request with a reason. -/
theorem justified_step (hlined : Lined r) (h : Justified c r₀ i b later (r.calls i))
    (e : Event ι) :
    Justified c r₀ i b (later ++ [e]) ((StreamRouter.step c r e).calls i) := by
  by_cases hi : i = e.request
  · subst hi
    have hsnoc := h.snoc e
    cases hcall : r.calls e.request with
    | absent => rw [hcall] at h; cases h
    | answered x =>
        rw [step_of_over ⟨by rw [hcall]; rfl, by rw [hcall]; exact fun hs => by cases hs⟩]
        exact hsnoc
    | raised f =>
        rw [step_of_over ⟨by rw [hcall]; rfl, by rw [hcall]; exact fun hs => by cases hs⟩]
        exact hsnoc
    | cancelled =>
        rw [step_of_over ⟨by rw [hcall]; rfl, by rw [hcall]; exact fun hs => by cases hs⟩]
        exact hsnoc
    | queued req wait => exact justified_wait hlined hcall h
    | streaming req s body =>
        rw [hcall] at h
        cases h with
        | served hpassed hslot =>
            obtain ⟨s', body', hs'⟩ : ∃ s' body', (StreamRouter.step c r e).calls e.request =
                .streaming b.request s' body' := streaming_step hcall
            rw [hs']
            exact .served hpassed (hslot.imp_right fun hwaited =>
              ⟨hwaited.1, List.mem_append_left _ hwaited.2⟩)
  · rw [calls_of_other hi]
    exact h.snoc e

/-- Only its submission brings a request in. -/
theorem absent_step (h : r.calls i = .absent) {e : Event ι} (he : ∀ b, e ≠ .submit i b) :
    (StreamRouter.step c r e).calls i = .absent := by
  by_cases hi : i = e.request
  · subst hi
    have hoccurs := occurs c r e
    generalize StreamRouter.step c r e = r' at hoccurs
    cases hoccurs with
    | idle => exact h
    | submit hcall b => exact absurd rfl (he b)
    | resume hother | expire hother | cancel hother | drive hother | finalise hother =>
        cases h.symm.trans hother
  · rw [calls_of_other hi]
    exact h

/-! ## Any interleaving -/

/-- The router after a history. -/
def after (c : Config) (events : List (Event ι)) : Router ι :=
  run (StreamRouter.step c) Router.start events

theorem after_snoc (c : Config) (events : List (Event ι)) (e : Event ι) :
    after c (events ++ [e]) = StreamRouter.step c (after c events) e := run_snoc _ _ _

theorem lined_after (c : Config) (events : List (Event ι)) : Lined (after c events) := by
  have hstart : Lined (Router.start : Router ι) :=
    ⟨List.nodup_nil, fun w hw => absurd hw List.not_mem_nil⟩
  have hstep : ∀ r : Router ι, ∀ e, Lined r → Lined (StreamRouter.step c r e) :=
    fun _ e h => lined_step h e
  exact run_invariant hstep hstart events

/-- The request did not come in, or what has become of it since has its reason. -/
def Accounted (c : Config) (events : List (Event ι)) (i : ι) : Prop :=
  ((after c events).calls i = .absent ∧ ∀ b, .submit i b ∉ events) ∨
    ∃ before b later, events = before ++ .submit i b :: later ∧ (∀ b', .submit i b' ∉ before) ∧
      Justified c (after c before) i b later ((after c events).calls i)

theorem accounted_after (c : Config) (events : List (Event ι)) (i : ι) :
    Accounted c events i := by
  induction events using List.reverseRecOn with
  | nil => exact Or.inl ⟨rfl, fun b => List.not_mem_nil⟩
  | append_singleton events e ih =>
      rw [Accounted, after_snoc]
      -- until it is submitted nothing happens to a request
      rcases ih with ⟨habsent, hnone⟩ | ⟨before, b, later, rfl, hfirst, hjustified⟩
      · by_cases he : ∃ b, e = .submit i b
        · obtain ⟨b, rfl⟩ := he
          have hstep : StreamRouter.step c (after c events) (.submit i b) =
              (after c events).submit c i b := by
            simp only [StreamRouter.step, habsent]
          rw [hstep]
          exact Or.inr ⟨events, b, [], rfl, hnone, justified_submit _ i b⟩
        · have hother : ∀ b, e ≠ .submit i b := fun b heq => he ⟨b, heq⟩
          refine Or.inl ⟨absent_step habsent hother, fun b hmem => ?_⟩
          rcases List.mem_append.mp hmem with hold | hnew
          · exact hnone b hold
          · exact hother b (List.mem_singleton.mp hnew).symm
      · refine Or.inr ⟨before, b, later ++ [e], ?_, hfirst, ?_⟩
        · rw [List.append_assoc]
          rfl
        · exact justified_step (lined_after c _) hjustified e

/-- **EVERY ANSWER HAS ITS REASON**: whatever requests come in and in whatever
    order their steps are taken, each has what its bucket and the slots gave it
    when it came in, and a 429, a 503, an exception or a cancellation stands for
    good. -/
theorem answers_justified (c : Config) (events : List (Event ι)) (i : ι) :
    Accounted c events i ∧ (Over ((after c events).calls i) →
      ∀ more, (after c (events ++ more)).calls i = (after c events).calls i) := by
  refine ⟨accounted_after c events i, fun hover more => ?_⟩
  rw [after, run_append]
  exact over_run hover more

end RouterAnswers
