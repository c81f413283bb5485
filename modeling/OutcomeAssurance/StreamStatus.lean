import OutcomeAssurance.Streaming

/-! # The terminal status of a stream

    The status variable of `stream_generation` starts as "completed" and is
    overwritten where the body lists an exit.  An exit that it does not list
    counts and logs the stream as completed. -/

namespace StreamStatus

open ModelBackend Runs Streaming

/-! ## What is counted, logged and yielded -/

/-- The label of `REQUESTS_TOTAL`. -/
def countedStatus : Effect → Option Status
  | .requestCounted status => some status
  | _ => none

/-- The status of `generate_finished`. -/
def loggedStatus : Effect → Option Status
  | .logged (.generateFinished status ..) => some status
  | _ => none

def isDone : SseEvent → Bool
  | .done .. => true
  | _ => false

def isTerminal : SseEvent → Bool
  | .token _ => false
  | _ => true

/-- The last event is a `done` or an `error`. -/
def Terminated (s : Stream) : Prop := ∃ e, s.events.getLast? = some e ∧ isTerminal e = true

/-- The client went away: it was seen to, or the generator was cancelled or
    closed while the stream had no terminal event. -/
def WentAway (s : Stream) (how : Ending) : Prop :=
  how = .disconnected ∨ how = .interrupted ∧ ¬ Terminated s

variable (req : GenerationRequest)

/-- The label is counted and logged once, and is the truth about the stream. -/
structure Truthful (s : Stream) (how : Ending) (label : Status) : Prop where
  counted : s.effects.filterMap countedStatus = [label]
  logged : s.effects.filterMap loggedStatus = [label]
  completed_iff : label = .completed ↔ ∃ e ∈ s.events, isDone e = true
  timeout_iff : label = .timeout ↔ s.events.getLast? = some (.error req.requestId "TIMEOUT")
  backendError_iff :
    label = .backendError ↔ s.events.getLast? = some (.error req.requestId "BACKEND_ERROR")
  cancelled_of_wentAway : WentAway s how → label = .cancelled
  ended : how = .interrupted ∨ how = .disconnected ∨ Terminated s

/-- A stream at its end has a truthful label. -/
def Accounted (s : Stream) : Prop :=
  ∀ how, s.pos = .finished how → ∃ label, Truthful req s how label

/-- The generator is not interrupted between its start and its terminal event,
    and no exception without a handler reaches it. -/
def Benign (s : Stream) (sig : Signal) : Prop :=
  (s.pos.midway = true → sig.interrupts = false) ∧ escapes s.pos sig = false

instance (s : Stream) (sig : Signal) : Decidable (Benign s sig) :=
  inferInstanceAs (Decidable (_ ∧ _))

/-! ## A stream on its way -/

/-- Nothing counted or logged as finished. -/
structure Uncounted (s : Stream) : Prop where
  counted : s.effects.filterMap countedStatus = []
  logged : s.effects.filterMap loggedStatus = []

/-- Tokens only. -/
structure Underway (s : Stream) : Prop extends Uncounted s where
  status_eq : s.status = .completed
  tokens : ∃ sent : List String, s.events = sent.map .token

/-- The terminal event and the status it goes with. -/
inductive Reports : SseEvent → Status → Prop where
  | timeout : Reports (.error req.requestId "TIMEOUT") .timeout
  | backendError : Reports (.error req.requestId "BACKEND_ERROR") .backendError
  | done (n : Nat) : Reports (.done req.requestId req.info n) .completed

/-- Tokens, and the terminal event behind them. -/
structure Closing (s : Stream) (e : SseEvent) : Prop extends Uncounted s where
  reports : Reports req e s.status
  tokens : ∃ sent : List String, s.events = sent.map .token ++ [e]

/-- What holds of a stream that met only benign signals. -/
def Kept (s : Stream) : Prop :=
  match s.pos with
  | .finished how => ∃ label, Truthful req s how label
  | .abandoned => True
  | .errorYield | .doneYield => ∃ e, Closing req s e
  | _ => Underway s

variable {req} {s : Stream}

theorem Reports.isTerminal {e : SseEvent} {status : Status} (h : Reports req e status) :
    isTerminal e = true := by
  cases h <;> rfl

theorem Reports.completed_iff {e : SseEvent} {status : Status} (h : Reports req e status) :
    status = .completed ↔ isDone e = true := by
  cases h <;> simp [isDone]

theorem Reports.timeout_iff {e : SseEvent} {status : Status} (h : Reports req e status) :
    status = .timeout ↔ e = .error req.requestId "TIMEOUT" := by
  cases h <;> simp

theorem Reports.backendError_iff {e : SseEvent} {status : Status} (h : Reports req e status) :
    status = .backendError ↔ e = .error req.requestId "BACKEND_ERROR" := by
  cases h <;> simp

theorem Closing.getLast {e : SseEvent} (h : Closing req s e) : s.events.getLast? = some e := by
  obtain ⟨sent, hsent⟩ := h.tokens
  rw [hsent, List.getLast?_concat]

theorem Closing.mem_isDone {e : SseEvent} (h : Closing req s e) :
    (∃ x ∈ s.events, isDone x = true) ↔ isDone e = true := by
  obtain ⟨sent, hsent⟩ := h.tokens
  rw [hsent]
  constructor
  · rintro ⟨x, hx, hdone⟩
    obtain hx | hx := List.mem_append.mp hx
    · obtain ⟨t, -, rfl⟩ := List.mem_map.mp hx
      cases hdone
    · obtain rfl := List.mem_singleton.mp hx
      exact hdone
  · intro hdone
    exact ⟨e, List.mem_append_right _ (List.mem_singleton_self e), hdone⟩

theorem Underway.event_eq (h : Underway s) {e : SseEvent} (he : e ∈ s.events) :
    ∃ t, e = .token t := by
  obtain ⟨sent, hsent⟩ := h.tokens
  rw [hsent] at he
  obtain ⟨t, -, rfl⟩ := List.mem_map.mp he
  exact ⟨t, rfl⟩

theorem Underway.not_isDone (h : Underway s) : ¬ ∃ e ∈ s.events, isDone e = true := by
  rintro ⟨e, he, hdone⟩
  obtain ⟨t, rfl⟩ := h.event_eq he
  cases hdone

theorem Underway.getLast_ne (h : Underway s) {e : SseEvent} (he : isTerminal e = true) :
    s.events.getLast? ≠ some e := by
  intro hlast
  obtain ⟨t, rfl⟩ := h.event_eq (List.mem_of_getLast? hlast)
  cases he

/-! ## The `finally` clause -/

theorem Uncounted.finish (h : Uncounted s) (req : GenerationRequest) (how : Ending) :
    (s.finish req how).effects.filterMap countedStatus = [s.status] ∧
      (s.finish req how).effects.filterMap loggedStatus = [s.status] := by
  rw [Stream.finish, List.filterMap_append, List.filterMap_append, h.counted, h.logged]
  exact ⟨rfl, rfl⟩

/-- A stream whose terminal event was yielded is labelled by it, however the
    generator ends after that. -/
theorem Closing.truthful {e : SseEvent} (h : Closing req s e) (how : Ending)
    (hhow : how ≠ .disconnected) : Truthful req (s.finish req how) how s.status := by
  obtain ⟨hcounted, hlogged⟩ := h.toUncounted.finish req how
  have hlast := h.getLast
  have hterminated : Terminated (s.finish req how) := ⟨e, hlast, h.reports.isTerminal⟩
  refine ⟨hcounted, hlogged, ?_, ?_, ?_, ?_, .inr (.inr hterminated)⟩
  · show s.status = _ ↔ ∃ x ∈ s.events, _
    rw [h.mem_isDone]
    exact h.reports.completed_iff
  · show s.status = _ ↔ s.events.getLast? = _
    rw [hlast, Option.some.injEq]
    exact h.reports.timeout_iff
  · show s.status = _ ↔ s.events.getLast? = _
    rw [hlast, Option.some.injEq]
    exact h.reports.backendError_iff
  · rintro (rfl | ⟨-, hnot⟩)
    · exact absurd rfl hhow
    · exact absurd hterminated hnot

/-- A detected disconnect is labelled as one. -/
theorem Underway.truthful_disconnected (h : Underway s) :
    Truthful req (Stream.finish req { s with status := .cancelled } .disconnected)
      .disconnected .cancelled := by
  have hcancelled : Uncounted { s with status := .cancelled } := ⟨h.counted, h.logged⟩
  obtain ⟨hcounted, hlogged⟩ := hcancelled.finish req .disconnected
  refine ⟨hcounted, hlogged, ?_, ?_, ?_, fun _ => rfl, .inr (.inl rfl)⟩
  · exact ⟨fun heq => Status.noConfusion heq, fun hdone => absurd hdone h.not_isDone⟩
  · exact ⟨fun heq => Status.noConfusion heq, fun hlast => absurd hlast (h.getLast_ne rfl)⟩
  · exact ⟨fun heq => Status.noConfusion heq, fun hlast => absurd hlast (h.getLast_ne rfl)⟩

/-- A stream that ends with tokens only, and with no disconnect seen, is
    labelled as completed. -/
theorem Underway.not_truthful (h : Underway s) (how : Ending) :
    ¬ ∃ label, Truthful req (s.finish req how) how label := by
  rintro ⟨label, htruthful⟩
  have hlabel : [s.status] = [label] :=
    (h.toUncounted.finish req how).1.symm.trans htruthful.counted
  rw [h.status_eq] at hlabel
  have hcompleted : label = .completed := (List.singleton_inj.mp hlabel).symm
  exact h.not_isDone (htruthful.completed_iff.mp hcompleted)

/-! ## One resumption -/

theorem underway_of_midway (h : Kept req s) (hmidway : s.pos.midway = true) : Underway s := by
  unfold Kept at h
  cases hpos : s.pos with
  | opening | backingOff | tokenYield | fetching | asking => rw [hpos] at h; exact h
  | _ => rw [hpos] at hmidway; cases hmidway

theorem underway_of_created (h : Kept req s) (hpos : s.pos = .created) : Underway s := by
  unfold Kept at h
  rw [hpos] at h
  exact h

theorem Underway.sendToken (h : Underway s) (count : Nat) (t : String) :
    Underway (s.sendToken count t) := by
  obtain ⟨sent, hsent⟩ := h.tokens
  refine ⟨⟨?_, ?_⟩, h.status_eq, sent ++ [t], ?_⟩
  · rw [Stream.sendToken, List.filterMap_append, h.counted]
    rfl
  · rw [Stream.sendToken, List.filterMap_append, h.logged]
    rfl
  · rw [Stream.sendToken, hsent, List.map_append]
    rfl

theorem Underway.erred (h : Underway s) {status : Status} {label reason : String}
    {record : LogRecord} (hreports : Reports req (.error req.requestId reason) status)
    (hrecord : record.final = false) :
    Closing req (s.erred req status label reason record) (.error req.requestId reason) := by
  obtain ⟨sent, hsent⟩ := h.tokens
  refine ⟨⟨?_, ?_⟩, hreports, sent, ?_⟩
  · rw [Stream.erred, List.filterMap_append, h.counted]
    rfl
  · rw [Stream.erred, List.filterMap_append, h.logged]
    cases record with
    | generateFinished => cases hrecord
    | _ => rfl
  · rw [Stream.erred, hsent]

theorem underway_start : Underway Stream.start where
  counted := rfl
  logged := rfl
  status_eq := rfl
  tokens := ⟨[], rfl⟩

/-- **A BENIGN RESUMPTION** keeps the books straight. -/
theorem kept_step (h : Kept req s) {sig : Signal} (hbenign : Benign s sig) :
    Kept req (step req s sig) := by
  have hstepped : Stepped req s sig (step req s sig) := stepped s sig
  generalize step req s sig = s' at hstepped
  cases hstepped with
  | idle => exact h
  | abandoned hpos hsig => exact trivial
  | opened hpos =>
      have hunder := underway_of_created h hpos
      exact ⟨⟨hunder.counted, hunder.logged⟩, hunder.status_eq, hunder.tokens⟩
  | retried hpos =>
      have hunder := underway_of_midway h (by rw [hpos]; rfl)
      refine ⟨⟨?_, ?_⟩, hunder.status_eq, hunder.tokens⟩
      · rw [List.filterMap_append, hunder.counted]
        rfl
      · rw [List.filterMap_append, hunder.logged]
        rfl
  | reopened hpos =>
      have hunder := underway_of_midway h (by rw [hpos]; rfl)
      exact ⟨⟨hunder.counted, hunder.logged⟩, hunder.status_eq, hunder.tokens⟩
  | sent hmidway => exact (underway_of_midway h hmidway).sendToken _ _
  | resumed hpos =>
      have hunder := underway_of_midway h (by rw [hpos]; rfl)
      exact ⟨⟨hunder.counted, hunder.logged⟩, hunder.status_eq, hunder.tokens⟩
  | fetched hpos =>
      have hunder := underway_of_midway h (by rw [hpos]; rfl)
      exact ⟨⟨hunder.counted, hunder.logged⟩, hunder.status_eq, hunder.tokens⟩
  | exhausted hpos =>
      have hunder := underway_of_midway h (by rw [hpos]; rfl)
      obtain ⟨sent, hsent⟩ := hunder.tokens
      have hreports : Reports req (.done req.requestId req.info s.tokensEmitted) s.status := by
        rw [hunder.status_eq]
        exact .done _
      exact ⟨_, ⟨hunder.counted, hunder.logged⟩, hreports, sent, by rw [hsent]⟩
  | timedOut hpos hrecord =>
      have hunder : Underway s :=
        hpos.elim (underway_of_created h) (underway_of_midway h)
      exact ⟨_, hunder.erred .timeout hrecord⟩
  | failed hmidway hrecord =>
      exact ⟨_, (underway_of_midway h hmidway).erred .backendError hrecord⟩
  | disconnected hpos =>
      have hunder := underway_of_midway h (by rw [hpos]; rfl)
      exact ⟨_, hunder.truthful_disconnected⟩
  | returned hpos =>
      obtain ⟨e, hclosing⟩ : ∃ e, Closing req s e := by
        unfold Kept at h
        obtain hpos | hpos := hpos
        · rw [hpos] at h
          exact h
        · rw [hpos] at h
          exact h
      exact ⟨_, hclosing.truthful .returned Ending.noConfusion⟩
  | interrupted hlive hsig =>
      -- only behind the terminal event
      have hmidway : s.pos.midway = false := by
        cases hmidway : s.pos.midway with
        | false => rfl
        | true => rw [hbenign.1 hmidway] at hsig; cases hsig
      obtain ⟨e, hclosing⟩ : ∃ e, Closing req s e := by
        unfold Kept at h
        cases hpos : s.pos with
        | errorYield | doneYield => rw [hpos] at h; exact h
        | created | finished | abandoned => rw [hpos] at hlive; cases hlive
        | _ => rw [hpos] at hmidway; cases hmidway
      exact ⟨_, hclosing.truthful .interrupted Ending.noConfusion⟩
  | escaped hescapes =>
      rw [hbenign.2] at hescapes
      cases hescapes

theorem accounted_of_kept (h : Kept req s) : Accounted req s := by
  intro how hpos
  unfold Kept at h
  rw [hpos] at h
  exact h

/-- A resumption that is not benign ends the stream with a false label. -/
theorem not_accounted_step (h : Kept req s) {sig : Signal} (hbenign : ¬ Benign s sig) :
    ∃ how, (step req s sig).pos = .finished how ∧ ¬ Accounted req (step req s sig) := by
  have hmidway_of_escapes : escapes s.pos sig = true → s.pos.midway = true := by
    intro hescapes
    cases hpos : s.pos with
    | opening | backingOff | tokenYield | fetching | asking => rfl
    | _ => rw [hpos] at hescapes; cases hescapes
  by_cases hescapes : escapes s.pos sig = true
  · have hunder := underway_of_midway h (hmidway_of_escapes hescapes)
    rw [step_of_escapes hescapes]
    exact ⟨.raised, rfl, fun hall => hunder.not_truthful .raised (hall .raised rfl)⟩
  · obtain ⟨hmidway, hsig⟩ : s.pos.midway = true ∧ sig.interrupts = true := by
      by_contra hnot
      refine hbenign ⟨fun hmidway => ?_, Bool.eq_false_iff.mpr hescapes⟩
      exact Bool.eq_false_iff.mpr fun hsig => hnot ⟨hmidway, hsig⟩
    have hlive : s.pos.live = true := by
      cases hpos : s.pos with
      | created | finished | abandoned => rw [hpos] at hmidway; cases hmidway
      | _ => rfl
    have hunder := underway_of_midway h hmidway
    rw [step_of_interrupts hlive hsig]
    exact ⟨.interrupted, rfl,
      fun hall => hunder.not_truthful .interrupted (hall .interrupted rfl)⟩

/-! ## Every run -/

/-- **THE TERMINAL STATUS IS TRUTHFUL EXACTLY ON BENIGN RUNS**: whatever the
    generator is resumed with, the label it counts and logs at its end is the
    truth about its events exactly when it is not interrupted between its start
    and its terminal event and no exception without a handler reaches it. -/
theorem accounted_iff (req : GenerationRequest) (signals : List Signal) :
    Accounted req (run (step req) Stream.start signals) ↔
      Along (step req) Benign Stream.start signals := by
  have hkept : Kept req Stream.start := underway_start
  have hstep : ∀ s sig, Kept req s → Benign s sig → Kept req (step req s sig) :=
    fun _ _ h hbenign => kept_step h hbenign
  constructor
  · intro haccounted
    by_contra hnot
    obtain ⟨pre, sig, post, rfl, hpre, hbroken⟩ := exists_first_break hnot
    have hat := run_invariant_along hstep hkept hpre
    obtain ⟨how, hpos, hfalse⟩ := not_accounted_step hat hbroken
    rw [run_append, run_cons, run_of_finished hpos] at haccounted
    exact hfalse haccounted
  · intro hbenign
    exact accounted_of_kept (run_invariant_along hstep hkept hbenign)

/-- The client goes away while the second token is waited for, and the stream
    counts as completed. -/
theorem cancelled_counted_completed :
    let req : GenerationRequest := ⟨"REQ-1", "REQ-1", ⟨"m", "v1", "c"⟩⟩
    let s := run (step req) Stream.start [.advance, .token "a", .advance, .cancelled]
    s.pos = .finished .interrupted ∧ s.effects.filterMap countedStatus = [.completed] ∧
      s.events = [.token "a"] ∧ ¬ Accounted req s := by
  refine ⟨rfl, rfl, rfl, fun hall => ?_⟩
  obtain ⟨label, htruthful⟩ := hall .interrupted rfl
  have hlabel : label = .completed := (List.singleton_inj.mp htruthful.counted).symm
  obtain ⟨e, he, hdone⟩ := htruthful.completed_iff.mp hlabel
  obtain rfl : e = .token "a" := List.mem_singleton.mp he
  cases hdone

end StreamStatus
