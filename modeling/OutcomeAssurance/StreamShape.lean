import Mathlib.Data.Prod.Lex
import OutcomeAssurance.Streaming

/-! # What a drained stream yields

    A consumer that takes every event, a backend whose attempts fail or stream,
    a deadline that expires at some moment and a client that may be gone: what
    `stream_generation` yields is then determined, and this file has it in
    terms of the last attempt. -/

namespace StreamShape

open ModelBackend Runs Streaming

/-- What surrounds a call that is drained. -/
structure World where
  /-- Attempt `n` of the backend, counted from 1. -/
  backend : Nat → Attempt
  /-- The moment from which the deadline is over, where it is over at all. -/
  expiry : Option Nat
  /-- What `is_disconnected` answers when so many tokens have been sent. -/
  disconnected : Nat → Bool

/-- Moments count what can be waited for under the deadline, in the order a
    call comes to it. -/
def World.expired (w : World) (moment : Nat) : Bool :=
  match w.expiry with
  | none => false
  | some m => decide (m ≤ moment)

/-- The tokens of attempt `n`. -/
def World.tokens (w : World) (n : Nat) : List String := (w.backend n).tokens

/-- What iterating the attempt gives after `k` tokens. -/
def next (a : Attempt) (k : Nat) : Signal :=
  match a with
  | .fails e => .raises (.backend e)
  | .streams first rest ending =>
      match (first :: rest)[k]? with
      | some t => .token t
      | none => ending.elim .exhausted fun e => .raises (.backend e)

/-- What the generator is resumed with, wherever it is suspended. -/
def signalOf (w : World) (s : Stream) : Signal :=
  match s.pos with
  | .created => if w.expired 0 then .expired else .advance
  | .opening n => if w.expired (2 * n) then .expired else next (w.backend n) 0
  | .backingOff n => if w.expired (2 * n + 1) then .expired else .slept
  | .fetching =>
      if w.expired (2 * s.attempts + s.tokensEmitted) then .expired
      else next (w.backend s.attempts) s.tokensEmitted
  | .asking _ => .answer (w.disconnected s.tokensEmitted)
  | _ => .advance

variable (req : GenerationRequest) (w : World)

def tick (s : Stream) : Stream := step req s (signalOf w s)

/-- The call after `k` resumptions. -/
def drain (k : Nat) : Stream := (tick req w)^[k] Stream.start

/-! ## How the last attempt went -/

/-- Attempt `n` ends normally, before the deadline and with no disconnect. -/
structure EndsNormally (n : Nat) : Prop where
  ends : ∃ first rest, w.backend n = .streams first rest none
  inTime : w.expired (2 * n + (w.tokens n).length) = false
  connected : ∀ i, 0 < i → i < (w.tokens n).length → w.disconnected i = false

/-- `is_disconnected` answers `True` about token `i` of attempt `n`, which was
    fetched and is not the first. -/
structure LeavesAt (n i : Nat) : Prop where
  beyond_first : 0 < i
  exists_token : i < (w.tokens n).length
  fetched : w.expired (2 * n + i) = false
  left : w.disconnected i = true
  asked : ∀ j, 0 < j → j < i → w.disconnected j = false

/-- What a drained stream yielded: the tokens sent, and the terminal event. -/
structure Drained (s : Stream) (sent : List String) (last : Option SseEvent) : Prop where
  events_eq : s.events = sent.map .token ++ last.toList
  sent_prefix : sent <+: w.tokens s.attempts
  tokensEmitted_eq : s.tokensEmitted = sent.length
  last_cases : last = none ∨ (∃ reason, last = some (.error req.requestId reason)) ∨
    last = some (.done req.requestId req.info sent.length)
  done_iff :
    last = some (.done req.requestId req.info sent.length) ↔ EndsNormally w s.attempts
  all_sent : EndsNormally w s.attempts → sent = w.tokens s.attempts
  silent_iff : last = none ↔ ∃ i, LeavesAt w s.attempts i
  attempts_le : s.attempts ≤ retryMaxAttempts
  retried : ∀ n, 0 < n → n < s.attempts → ∃ message, w.backend n = .fails ⟨.transient, message⟩

/-! ## On the way -/

/-- The tokens sent so far. -/
structure Sent (s : Stream) (sent : List String) : Prop where
  events_eq : s.events = sent.map .token
  sent_prefix : sent <+: w.tokens s.attempts
  tokensEmitted_eq : s.tokensEmitted = sent.length
  attempts_le : s.attempts ≤ retryMaxAttempts
  retried : ∀ n, 0 < n → n < s.attempts → ∃ message, w.backend n = .fails ⟨.transient, message⟩

/-- Attempt `n` has begun, and nothing was sent. -/
structure Priming (s : Stream) (n : Nat) : Prop extends Sent w s [] where
  attempts_eq : s.attempts = n
  pos : 0 < n

/-- Tokens were sent, and the client was there for each of them. -/
structure Sending (s : Stream) (sent : List String) : Prop extends Sent w s sent where
  ne_nil : sent ≠ []
  connected : ∀ i, 0 < i → i < sent.length → w.disconnected i = false

/-- What holds of a call that is being drained. -/
def Sound (s : Stream) : Prop :=
  match s.pos with
  | .created => s = Stream.start
  | .opening n => Priming w s n
  | .backingOff n => Priming w s n ∧ n < retryMaxAttempts ∧
      ∃ message, w.backend n = .fails ⟨.transient, message⟩
  | .tokenYield | .fetching => ∃ sent, Sending w s sent
  | .asking t => ∃ sent, Sending w s sent ∧ (w.tokens s.attempts)[sent.length]? = some t ∧
      w.expired (2 * s.attempts + sent.length) = false
  | .errorYield | .doneYield | .finished _ => ∃ sent last, Drained req w s sent last
  | .abandoned => False

/-- How far the call is from its end: the attempts ahead, then the tokens. -/
def rank (s : Stream) : ℕ ×ₗ ℕ :=
  match s.pos with
  | .created => toLex (2 * retryMaxAttempts + 4, 0)
  | .opening n => toLex (2 * (retryMaxAttempts - n) + 3, 0)
  | .backingOff n => toLex (2 * (retryMaxAttempts - n) + 2, 0)
  | .tokenYield => toLex (1, 3 * ((w.tokens s.attempts).length - s.tokensEmitted) + 2)
  | .fetching => toLex (1, 3 * ((w.tokens s.attempts).length - s.tokensEmitted) + 1)
  | .asking _ => toLex (1, 3 * ((w.tokens s.attempts).length - s.tokensEmitted))
  | .errorYield | .doneYield => toLex (0, 1)
  | .finished _ | .abandoned => toLex (0, 0)

variable {req w} {s : Stream} {sent : List String} {n i : Nat}

/-! ## The clock -/

theorem World.expired_mono {m k : Nat} (hmk : m ≤ k) (h : w.expired m = true) :
    w.expired k = true := by
  unfold World.expired at h ⊢
  cases hexpiry : w.expiry with
  | none => rw [hexpiry] at h; cases h
  | some e =>
      rw [hexpiry] at h
      exact decide_eq_true (Nat.le_trans (of_decide_eq_true h) hmk)

/-- Once the deadline is over the attempt does not end normally. -/
theorem not_endsNormally_of_expired {m : Nat} (hm : m ≤ 2 * n + (w.tokens n).length)
    (h : w.expired m = true) : ¬ EndsNormally w n := by
  intro hends
  exact absurd (World.expired_mono hm h) (Bool.eq_false_iff.mp hends.inTime)

/-- A disconnect is noticed only before the deadline is over. -/
theorem LeavesAt.lt_of_expired {m : Nat} (h : LeavesAt w n i) (hm : w.expired m = true) :
    2 * n + i < m := by
  by_contra hle
  exact absurd (World.expired_mono (Nat.not_lt.mp hle) hm) (Bool.eq_false_iff.mp h.fetched)

theorem not_endsNormally_of_fails {e : BackendError} (h : w.backend n = .fails e) :
    ¬ EndsNormally w n := by
  rintro ⟨⟨first, rest, heq⟩, -, -⟩
  rw [h] at heq
  cases heq

theorem not_leavesAt_of_fails {e : BackendError} (h : w.backend n = .fails e) :
    ¬ LeavesAt w n i := by
  intro hleaves
  have hlt := hleaves.exists_token
  rw [World.tokens, h] at hlt
  exact absurd hlt (Nat.not_lt_zero i)

/-- No disconnect was noticed about a token that was sent. -/
theorem Sending.not_leavesAt (h : Sending w s sent) (hi : i < sent.length) :
    ¬ LeavesAt w s.attempts i := by
  intro hleaves
  have hconnected := h.connected i hleaves.beyond_first hi
  rw [hleaves.left] at hconnected
  cases hconnected

/-! ## The terminal events -/

/-- An error ends what neither ends normally nor is left. -/
theorem Sent.erred (h : Sent w s sent) (hends : ¬ EndsNormally w s.attempts)
    (hleaves : ∀ i, ¬ LeavesAt w s.attempts i) (status : Status) (label reason : String)
    (record : LogRecord) :
    Drained req w (s.erred req status label reason record) sent
      (some (.error req.requestId reason)) where
  events_eq := by rw [Stream.erred, h.events_eq]; rfl
  sent_prefix := h.sent_prefix
  tokensEmitted_eq := h.tokensEmitted_eq
  last_cases := .inr (.inl ⟨reason, rfl⟩)
  done_iff := ⟨fun heq => SseEvent.noConfusion (Option.some.inj heq), fun h => absurd h hends⟩
  all_sent := fun h => absurd h hends
  silent_iff := by
    refine ⟨fun heq => absurd heq (Option.some_ne_none _), ?_⟩
    rintro ⟨i, hi⟩
    exact absurd hi (hleaves i)
  attempts_le := h.attempts_le
  retried := h.retried

/-- The attempt ended and its tokens are sent. -/
theorem Sending.done (h : Sending w s sent) (hall : sent = w.tokens s.attempts)
    (hends : EndsNormally w s.attempts) :
    Drained req w
      { s with
        pos := .doneYield
        events := s.events ++ [.done req.requestId req.info s.tokensEmitted] }
      sent (some (.done req.requestId req.info sent.length)) where
  events_eq := by rw [h.events_eq, h.tokensEmitted_eq]; rfl
  sent_prefix := h.sent_prefix
  tokensEmitted_eq := h.tokensEmitted_eq
  last_cases := .inr (.inr rfl)
  done_iff := ⟨fun _ => hends, fun _ => rfl⟩
  all_sent := fun _ => hall
  silent_iff := by
    refine ⟨fun heq => absurd heq (Option.some_ne_none _), ?_⟩
    rintro ⟨i, hi⟩
    have hlt : i < sent.length := hall ▸ hi.exists_token
    exact absurd hi (h.not_leavesAt hlt)
  attempts_le := h.attempts_le
  retried := h.retried

/-- The client is gone. -/
theorem Sending.left (h : Sending w s sent) (htoken : sent.length < (w.tokens s.attempts).length)
    (hfetched : w.expired (2 * s.attempts + sent.length) = false)
    (hleft : w.disconnected sent.length = true) :
    Drained req w (Stream.finish req { s with status := .cancelled } .disconnected) sent none where
  events_eq := by rw [Option.toList_none, List.append_nil]; exact h.events_eq
  sent_prefix := h.sent_prefix
  tokensEmitted_eq := h.tokensEmitted_eq
  last_cases := .inl rfl
  done_iff := by
    refine ⟨fun heq => absurd heq.symm (Option.some_ne_none _), fun hends => ?_⟩
    have hconnected := hends.connected sent.length (List.length_pos_of_ne_nil h.ne_nil) htoken
    rw [hleft] at hconnected
    cases hconnected
  all_sent := fun hends => by
    have hconnected := hends.connected sent.length (List.length_pos_of_ne_nil h.ne_nil) htoken
    rw [hleft] at hconnected
    cases hconnected
  silent_iff := by
    refine ⟨fun _ => ⟨sent.length, ?_⟩, fun _ => rfl⟩
    exact ⟨List.length_pos_of_ne_nil h.ne_nil, htoken, hfetched, hleft, h.connected⟩
  attempts_le := h.attempts_le
  retried := h.retried

/-- The deadline expires before the first token. -/
theorem Priming.timedOut (h : Priming w s n) {m : Nat} (hm : m ≤ 2 * n)
    (hexpired : w.expired m = true) (record : LogRecord) :
    Drained req w (s.timedOut req record) [] (some (.error req.requestId "TIMEOUT")) := by
  refine h.toSent.erred ?_ ?_ ..
  · rw [h.attempts_eq]
    exact not_endsNormally_of_expired (by omega) hexpired
  · intro i hleaves
    rw [h.attempts_eq] at hleaves
    have hlt := hleaves.lt_of_expired hexpired
    omega

/-- The last attempt raises before its first token. -/
theorem Priming.failed (h : Priming w s n) {e : BackendError} (he : w.backend n = .fails e)
    (status : Status) (label reason : String) (record : LogRecord) :
    Drained req w (s.erred req status label reason record) []
      (some (.error req.requestId reason)) := by
  refine h.toSent.erred ?_ ?_ ..
  · rw [h.attempts_eq]
    exact not_endsNormally_of_fails he
  · intro i
    rw [h.attempts_eq]
    exact not_leavesAt_of_fails he

/-- The deadline expires behind a token. -/
theorem Sending.timedOut (h : Sending w s sent)
    (hexpired : w.expired (2 * s.attempts + sent.length) = true) (record : LogRecord) :
    Drained req w (s.timedOut req record) sent (some (.error req.requestId "TIMEOUT")) := by
  refine h.toSent.erred ?_ ?_ ..
  · have hle := h.sent_prefix.length_le
    exact not_endsNormally_of_expired (by omega) hexpired
  · intro i hleaves
    have hlt := hleaves.lt_of_expired hexpired
    exact h.not_leavesAt (by omega) hleaves

/-- The attempt raises behind its last token. -/
theorem Sending.failed (h : Sending w s sent) (hall : sent = w.tokens s.attempts)
    {first : String} {rest : List String} {e : BackendError}
    (hbackend : w.backend s.attempts = .streams first rest (some e)) (record : LogRecord) :
    Drained req w (s.failed req e record) sent (some (.error req.requestId "BACKEND_ERROR")) := by
  refine h.toSent.erred ?_ ?_ ..
  · rintro ⟨⟨first', rest', heq⟩, -, -⟩
    rw [hbackend] at heq
    cases heq
  · intro i hleaves
    have hlt : i < sent.length := hall ▸ hleaves.exists_token
    exact h.not_leavesAt hlt hleaves

/-! ## Sending a token -/

/-- The first token of an attempt. -/
theorem Priming.sendFirst (h : Priming w s n) {first : String} {rest : List String}
    {ending : Option BackendError} (hbackend : w.backend n = .streams first rest ending) :
    Sending w (s.sendToken 1 first) [first] := by
  have htokens : w.tokens s.attempts = first :: rest := by
    rw [World.tokens, h.attempts_eq, hbackend]
    rfl
  refine ⟨⟨?_, ?_, rfl, h.attempts_le, h.retried⟩, List.cons_ne_nil _ _, ?_⟩
  · rw [Stream.sendToken, h.events_eq]
    rfl
  · show [first] <+: w.tokens s.attempts
    rw [htokens]
    exact ⟨rest, rfl⟩
  · intro i hi hlt
    exact absurd hlt (Nat.not_lt.mpr hi)

/-- Where the generator is suspended does not matter to what was sent. -/
theorem Sending.at (h : Sending w s sent) (pos : Pos) : Sending w { s with pos := pos } sent :=
  ⟨⟨h.events_eq, h.sent_prefix, h.tokensEmitted_eq, h.attempts_le, h.retried⟩, h.ne_nil,
    h.connected⟩

/-- A further token, after the client was found to be there. -/
theorem Sending.sendNext (h : Sending w s sent) {t : String}
    (htoken : (w.tokens s.attempts)[sent.length]? = some t)
    (hconnected : w.disconnected sent.length = false) :
    Sending w (s.sendToken (s.tokensEmitted + 1) t) (sent ++ [t]) := by
  obtain ⟨tail, htail⟩ := h.sent_prefix
  obtain ⟨rest, rfl⟩ : ∃ rest, tail = t :: rest := by
    rw [← htail, List.getElem?_append_right (Nat.le_refl _), Nat.sub_self] at htoken
    cases tail with
    | nil => cases htoken
    | cons x rest => exact ⟨rest, by rw [Option.some.inj htoken]⟩
  refine ⟨⟨?_, ?_, ?_, h.attempts_le, h.retried⟩, ?_, ?_⟩
  · rw [Stream.sendToken, h.events_eq, List.map_append]
    rfl
  · exact ⟨rest, by rw [List.append_assoc]; exact htail⟩
  · rw [List.length_append, ← h.tokensEmitted_eq]
    rfl
  · exact List.append_ne_nil_of_right_ne_nil _ (List.cons_ne_nil _ _)
  · intro i hi hlt
    rw [List.length_append, List.length_singleton] at hlt
    obtain hlt | rfl := Nat.lt_succ_iff_lt_or_eq.mp hlt
    · exact h.connected i hi hlt
    · exact hconnected

/-! ## One resumption -/

theorem next_of_getElem {a : Attempt} {k : Nat} {t : String} (h : a.tokens[k]? = some t) :
    next a k = .token t := by
  cases a with
  | fails e => cases h
  | streams first rest ending =>
      have hget : (first :: rest)[k]? = some t := h
      simp only [next, hget]

theorem next_length (first : String) (rest : List String) (ending : Option BackendError) :
    next (.streams first rest ending) (first :: rest).length
      = ending.elim .exhausted fun e => .raises (.backend e) := by
  simp only [next, List.getElem?_eq_none (Nat.le_refl _)]

/-- The next state is sound and nearer to the end. -/
structure Advances (req : GenerationRequest) (w : World) (s s' : Stream) : Prop where
  sound : Sound req w s'
  rank_lt : rank w s' < rank w s

/-- A terminal event, or the end, is nearer than whatever comes before it. -/
theorem rank_lt_of_midway {s' : Stream} (hpos : s.pos = .created ∨ s.pos.midway = true)
    {k : Nat} (hrank : rank w s' = toLex (0, k)) : rank w s' < rank w s := by
  rw [hrank]
  unfold rank
  obtain hpos | hmidway := hpos
  · rw [hpos]
    exact Prod.Lex.toLex_lt_toLex.mpr (.inl (Nat.succ_pos _))
  · cases hpos : s.pos with
    | opening | backingOff => exact Prod.Lex.toLex_lt_toLex.mpr (.inl (Nat.succ_pos _))
    | tokenYield | fetching | asking => exact Prod.Lex.toLex_lt_toLex.mpr (.inl Nat.one_pos)
    | _ => rw [hpos] at hmidway; cases hmidway

/-- What the call is resumed with under the deadline, in the three waits. -/
theorem signalOf_created (hpos : s.pos = .created) :
    signalOf w s = if w.expired 0 then .expired else .advance := by
  unfold signalOf
  rw [hpos]

theorem signalOf_opening (hpos : s.pos = .opening n) :
    signalOf w s = if w.expired (2 * n) then .expired else next (w.backend n) 0 := by
  unfold signalOf
  rw [hpos]

theorem signalOf_backingOff (hpos : s.pos = .backingOff n) :
    signalOf w s = if w.expired (2 * n + 1) then .expired else .slept := by
  unfold signalOf
  rw [hpos]

theorem signalOf_fetching (hpos : s.pos = .fetching) :
    signalOf w s = if w.expired (2 * s.attempts + s.tokensEmitted) then .expired
      else next (w.backend s.attempts) s.tokensEmitted := by
  unfold signalOf
  rw [hpos]

/-- **BEFORE THE START**: the deadline is over, or the first attempt begins. -/
theorem advances_created (h : Sound req w s) (hpos : s.pos = .created) :
    Advances req w s (tick req w s) := by
  unfold Sound at h
  rw [hpos] at h
  obtain rfl : s = Stream.start := h
  have hnothing : ∀ n, n ≤ 1 → ∀ m, 0 < m → m < n →
      ∃ message, w.backend m = .fails ⟨.transient, message⟩ := by
    intro n hn m hm hmn
    omega
  rw [tick, signalOf_created rfl]
  cases hexpired : w.expired 0 with
  | true =>
      have hsent : Sent w Stream.start [] :=
        ⟨rfl, List.nil_prefix, rfl, Nat.zero_le _, hnothing 0 (Nat.zero_le _)⟩
      refine ⟨⟨_, _, hsent.erred ?_ ?_ ..⟩, rank_lt_of_midway (.inl rfl) rfl⟩
      · exact not_endsNormally_of_expired (Nat.zero_le _) hexpired
      · intro i hleaves
        exact absurd (hleaves.lt_of_expired hexpired) (Nat.not_lt_zero _)
  | false =>
      have hpriming : Priming w { Stream.start with pos := .opening 1, attempts := 1 } 1 :=
        ⟨⟨rfl, List.nil_prefix, rfl, Nat.succ_pos _, hnothing 1 (Nat.le_refl _)⟩, rfl,
          Nat.one_pos⟩
      exact ⟨hpriming, Prod.Lex.toLex_lt_toLex.mpr (.inl (by decide))⟩

/-- **AN ATTEMPT** times out, sends its first token, fails, or is to be retried. -/
theorem advances_opening (h : Sound req w s) (hpos : s.pos = .opening n) :
    Advances req w s (tick req w s) := by
  have hmidway : s.pos.midway = true := by rw [hpos]; rfl
  have hpriming : Priming w s n := by
    unfold Sound at h
    rw [hpos] at h
    exact h
  have hattempts := hpriming.attempts_eq
  rw [tick, signalOf_opening hpos]
  cases hexpired : w.expired (2 * n) with
  | true =>
      have hstep : step req s .expired = s.primeFault req .timeout := by
        unfold step
        rw [hpos]
      rw [if_pos rfl, hstep]
      exact ⟨⟨_, _, hpriming.timedOut (Nat.le_refl _) hexpired _⟩,
        rank_lt_of_midway (.inr hmidway) rfl⟩
  | false =>
      rw [if_neg Bool.false_ne_true]
      cases hbackend : w.backend n with
      | streams first rest ending =>
          have hstep : step req s (.token first) = s.sendToken 1 first := by
            unfold step
            rw [hpos]
          rw [next_of_getElem (a := .streams first rest ending) rfl, hstep]
          refine ⟨⟨_, hpriming.sendFirst hbackend⟩, ?_⟩
          unfold rank
          rw [hpos]
          exact Prod.Lex.toLex_lt_toLex.mpr (.inl (by show 1 < _; omega))
      | fails e =>
          have hstep : step req s (.raises (.backend e)) = s.attemptRaised req n (.backend e) := by
            unfold step
            rw [hpos]
          rw [show next (.fails e) 0 = .raises (.backend e) from rfl, hstep, Stream.attemptRaised]
          by_cases hretry : e.kind = .transient ∧ n < retryMaxAttempts
          · have hfails : ∃ message, w.backend n = .fails ⟨.transient, message⟩ :=
              ⟨e.message, by rw [hbackend, ← hretry.1]⟩
            rw [if_pos hretry]
            refine ⟨⟨?_, hretry.2, hfails⟩, ?_⟩
            · exact ⟨⟨hpriming.events_eq, hpriming.sent_prefix, hpriming.tokensEmitted_eq,
                hpriming.attempts_le, hpriming.retried⟩, hattempts, hpriming.pos⟩
            · unfold rank
              rw [hpos]
              exact Prod.Lex.toLex_lt_toLex.mpr (.inl (Nat.lt_succ_self _))
          · rw [if_neg hretry]
            exact ⟨⟨_, _, hpriming.failed hbackend _ _ _ _⟩, rank_lt_of_midway (.inr hmidway) rfl⟩

/-- **THE PAUSE** is followed by the next attempt, if the deadline allows. -/
theorem advances_backingOff (h : Sound req w s) (hpos : s.pos = .backingOff n) :
    Advances req w s (tick req w s) := by
  have hmidway : s.pos.midway = true := by rw [hpos]; rfl
  obtain ⟨hpriming, hlt, message, hfails⟩ : Priming w s n ∧ n < retryMaxAttempts ∧
      ∃ message, w.backend n = .fails ⟨.transient, message⟩ := by
    unfold Sound at h
    rw [hpos] at h
    exact h
  rw [tick, signalOf_backingOff hpos]
  cases hexpired : w.expired (2 * n + 1) with
  | true =>
      have hstep : step req s .expired = s.primeFault req .timeout := by
        unfold step
        rw [hpos]
      rw [if_pos rfl, hstep]
      exact ⟨⟨_, _, hpriming.failed hfails _ _ _ _⟩, rank_lt_of_midway (.inr hmidway) rfl⟩
  | false =>
      have hstep : step req s .slept = { s with pos := .opening (n + 1), attempts := n + 1 } := by
        unfold step
        rw [hpos]
      rw [if_neg Bool.false_ne_true, hstep]
      refine ⟨⟨⟨hpriming.events_eq, List.nil_prefix, hpriming.tokensEmitted_eq, hlt, ?_⟩, rfl,
        Nat.succ_pos n⟩, ?_⟩
      · intro m hm hmn
        obtain hmn | rfl := Nat.lt_succ_iff_lt_or_eq.mp hmn
        · exact hpriming.retried m hm (by rw [hpriming.attempts_eq]; exact hmn)
        · exact ⟨message, hfails⟩
      · unfold rank
        rw [hpos]
        refine Prod.Lex.toLex_lt_toLex.mpr (.inl ?_)
        show 2 * (retryMaxAttempts - (n + 1)) + 3 < 2 * (retryMaxAttempts - n) + 2
        omega

theorem sending_of_sound (h : Sound req w s) (hpos : s.pos = .tokenYield ∨ s.pos = .fetching) :
    ∃ sent, Sending w s sent := by
  unfold Sound at h
  obtain hpos | hpos := hpos
  · rw [hpos] at h
    exact h
  · rw [hpos] at h
    exact h

/-- **A WAIT FOR A FURTHER TOKEN** times out, has a token, or finds the attempt
    at its end. -/
theorem advances_fetching (h : Sound req w s) (hpos : s.pos = .fetching) :
    Advances req w s (tick req w s) := by
  have hmidway : s.pos.midway = true := by rw [hpos]; rfl
  obtain ⟨sent, hsending⟩ := sending_of_sound h (.inr hpos)
  have hemitted := hsending.tokensEmitted_eq
  rw [tick, signalOf_fetching hpos, hemitted]
  cases hexpired : w.expired (2 * s.attempts + sent.length) with
  | true =>
      have hstep : step req s .expired = s.streamFault req .timeout := by
        unfold step
        rw [hpos]
      rw [if_pos rfl, hstep]
      exact ⟨⟨_, _, hsending.timedOut hexpired _⟩, rank_lt_of_midway (.inr hmidway) rfl⟩
  | false =>
      rw [if_neg Bool.false_ne_true]
      obtain hlt | heq := Nat.lt_or_eq_of_le hsending.sent_prefix.length_le
      · obtain ⟨t, ht⟩ : ∃ t, (w.tokens s.attempts)[sent.length]? = some t :=
          ⟨_, List.getElem?_eq_getElem hlt⟩
        have hstep : step req s (.token t) = { s with pos := .asking t } := by
          unfold step
          rw [hpos]
        rw [next_of_getElem ht, hstep]
        refine ⟨⟨sent, hsending.at _, ht, hexpired⟩, ?_⟩
        unfold rank
        rw [hpos]
        exact Prod.Lex.toLex_lt_toLex.mpr (.inr ⟨rfl, Nat.lt_succ_self _⟩)
      · have hall : sent = w.tokens s.attempts := hsending.sent_prefix.eq_of_length heq
        cases hbackend : w.backend s.attempts with
        | fails e =>
            rw [World.tokens, hbackend] at hall
            exact absurd hall hsending.ne_nil
        | streams first rest ending =>
            have hlength : sent.length = (first :: rest).length := by
              rw [heq, World.tokens, hbackend]
              rfl
            rw [hlength, next_length]
            cases ending with
            | none =>
                have hstep : step req s .exhausted = { s with
                    pos := .doneYield
                    events := s.events ++ [.done req.requestId req.info s.tokensEmitted] } := by
                  unfold step
                  rw [hpos]
                have hends : EndsNormally w s.attempts :=
                  ⟨⟨first, rest, hbackend⟩, by rw [← hall]; exact hexpired,
                    by rw [← hall]; exact hsending.connected⟩
                rw [Option.elim_none, hstep]
                exact ⟨⟨_, _, hsending.done hall hends⟩, rank_lt_of_midway (.inr hmidway) rfl⟩
            | some e =>
                have hstep :
                    step req s (.raises (.backend e)) = s.streamFault req (.backend e) := by
                  unfold step
                  rw [hpos]
                rw [Option.elim_some, hstep]
                exact ⟨⟨_, _, hsending.failed hall hbackend _⟩,
                  rank_lt_of_midway (.inr hmidway) rfl⟩

/-- **A FETCHED TOKEN** is sent, unless the client is gone. -/
theorem advances_asking (h : Sound req w s) {t : String} (hpos : s.pos = .asking t) :
    Advances req w s (tick req w s) := by
  have hmidway : s.pos.midway = true := by rw [hpos]; rfl
  obtain ⟨sent, hsending, htoken, hfetched⟩ : ∃ sent, Sending w s sent ∧
      (w.tokens s.attempts)[sent.length]? = some t ∧
      w.expired (2 * s.attempts + sent.length) = false := by
    unfold Sound at h
    rw [hpos] at h
    exact h
  have hemitted := hsending.tokensEmitted_eq
  obtain ⟨hlt, -⟩ := List.getElem?_eq_some_iff.mp htoken
  have hsig : signalOf w s = .answer (w.disconnected sent.length) := by
    unfold signalOf
    rw [hpos, ← hemitted]
  rw [tick, hsig]
  cases hleft : w.disconnected sent.length with
  | true =>
      have hstep : step req s (.answer true)
          = Stream.finish req { s with status := .cancelled } .disconnected := by
        unfold step
        rw [hpos]
      rw [hstep]
      exact ⟨⟨_, _, hsending.left hlt hfetched hleft⟩, rank_lt_of_midway (.inr hmidway) rfl⟩
  | false =>
      have hstep : step req s (.answer false) = s.sendToken (s.tokensEmitted + 1) t := by
        unfold step
        rw [hpos]
      rw [hstep]
      refine ⟨⟨_, hsending.sendNext htoken hleft⟩, ?_⟩
      unfold rank
      rw [hpos]
      refine Prod.Lex.toLex_lt_toLex.mpr (.inr ⟨rfl, ?_⟩)
      show 3 * ((w.tokens s.attempts).length - (s.tokensEmitted + 1)) + 2
        < 3 * ((w.tokens s.attempts).length - s.tokensEmitted)
      omega

/-- The consumer comes back for more. -/
theorem advances_tokenYield (h : Sound req w s) (hpos : s.pos = .tokenYield) :
    Advances req w s (tick req w s) := by
  obtain ⟨sent, hsending⟩ := sending_of_sound h (.inl hpos)
  have htick : tick req w s = { s with pos := .fetching } := by
    unfold tick signalOf step
    rw [hpos]
  rw [htick]
  refine ⟨⟨sent, hsending.at _⟩, ?_⟩
  unfold rank
  rw [hpos]
  exact Prod.Lex.toLex_lt_toLex.mpr (.inr ⟨rfl, Nat.lt_succ_self _⟩)

/-- The consumer comes back behind the terminal event. -/
theorem advances_terminated (h : Sound req w s)
    (hpos : s.pos = .errorYield ∨ s.pos = .doneYield) : Advances req w s (tick req w s) := by
  obtain ⟨sent, last, hdrained⟩ : ∃ sent last, Drained req w s sent last := by
    unfold Sound at h
    obtain hpos | hpos := hpos
    · rw [hpos] at h
      exact h
    · rw [hpos] at h
      exact h
  have htick : tick req w s = s.finish req .returned := by
    unfold tick signalOf step
    obtain hpos | hpos := hpos <;> rw [hpos]
  have hrank : rank w s = toLex (0, 1) := by
    unfold rank
    obtain hpos | hpos := hpos <;> rw [hpos]
  rw [htick]
  refine ⟨⟨sent, last, hdrained.events_eq, hdrained.sent_prefix, hdrained.tokensEmitted_eq,
    hdrained.last_cases, hdrained.done_iff, hdrained.all_sent, hdrained.silent_iff,
    hdrained.attempts_le, hdrained.retried⟩, ?_⟩
  rw [hrank]
  exact Prod.Lex.toLex_lt_toLex.mpr (.inr ⟨rfl, Nat.one_pos⟩)

/-! ## The whole call -/

def Finished (s : Stream) : Prop := ∃ how, s.pos = .finished how

/-- **EACH RESUMPTION** keeps the call sound and, until it is at its end, brings
    it nearer. -/
theorem advances (h : Sound req w s) (hunfinished : ¬ Finished s) :
    Advances req w s (tick req w s) := by
  cases hpos : s.pos with
  | created => exact advances_created h hpos
  | opening n => exact advances_opening h hpos
  | backingOff n => exact advances_backingOff h hpos
  | tokenYield => exact advances_tokenYield h hpos
  | fetching => exact advances_fetching h hpos
  | asking t => exact advances_asking h hpos
  | errorYield => exact advances_terminated h (.inl hpos)
  | doneYield => exact advances_terminated h (.inr hpos)
  | finished how => exact absurd ⟨how, hpos⟩ hunfinished
  | abandoned =>
      unfold Sound at h
      rw [hpos] at h
      exact h.elim

theorem tick_of_finished (h : Finished s) : tick req w s = s := by
  obtain ⟨how, hpos⟩ := h
  exact step_of_finished hpos _

theorem sound_tick (h : Sound req w s) : Sound req w (tick req w s) := by
  by_cases hfinished : Finished s
  · rw [tick_of_finished hfinished]
    exact h
  · exact (advances h hfinished).sound

theorem sound_drain (req : GenerationRequest) (w : World) (k : Nat) :
    Sound req w (drain req w k) := by
  induction k with
  | zero => exact rfl
  | succ k ih =>
      rw [drain, Function.iterate_succ_apply']
      exact sound_tick ih

theorem attempts_tick (h : Sound req w s) (hevents : s.events ≠ []) :
    (tick req w s).attempts = s.attempts ∧ (tick req w s).events ≠ [] := by
  have hstepped : Stepped req s (signalOf w s) (step req s (signalOf w s)) := stepped s _
  rw [tick]
  generalize signalOf w s = sig at hstepped
  generalize step req s sig = s' at hstepped
  have hgrown : ∀ e, s.events ++ [e] ≠ [] :=
    fun _ => List.append_ne_nil_of_right_ne_nil _ (List.cons_ne_nil _ _)
  cases hstepped with
  | opened hpos =>
      unfold Sound at h
      rw [hpos] at h
      obtain rfl : s = Stream.start := h
      exact absurd rfl hevents
  | reopened hpos =>
      unfold Sound at h
      rw [hpos] at h
      exact absurd h.1.events_eq hevents
  | sent | exhausted | timedOut | failed => exact ⟨rfl, hgrown _⟩
  | _ => exact ⟨rfl, hevents⟩

/-- Once a token was sent no further attempt starts. -/
theorem attempts_drain {k m : Nat} (hkm : k ≤ m) (hevents : (drain req w k).events ≠ []) :
    (drain req w m).attempts = (drain req w k).attempts ∧ (drain req w m).events ≠ [] := by
  induction m, hkm using Nat.le_induction with
  | base => exact ⟨rfl, hevents⟩
  | succ m hkm ih =>
      obtain ⟨hattempts, hnext⟩ := attempts_tick (sound_drain req w m) ih.2
      rw [drain, Function.iterate_succ_apply', ← drain, hattempts]
      exact ⟨ih.1, hnext⟩

/-- **EVERY DRAINED STREAM** comes to its end with the tokens of its last attempt,
    or the first of them, and one terminal event or none: `done` exactly when
    the attempt ended normally, in time and with the client there, nothing
    exactly when the client was found to be gone.  No more than three attempts
    are made, those before the last failed transiently, and none starts once a
    token was sent. -/
theorem drained_stream (req : GenerationRequest) (w : World) :
    ∃ k how, (drain req w k).pos = .finished how ∧
      (∃ sent last, Drained req w (drain req w k) sent last) ∧
      ∀ m m', m ≤ m' → (drain req w m).events ≠ [] →
        (drain req w m').attempts = (drain req w m).attempts := by
  obtain ⟨k, ⟨how, hpos⟩, hsound⟩ := exists_iterate_of_rank (rank w)
    (fun s (h : Sound req w s) => sound_tick h)
    (fun s h hunfinished => (advances h hunfinished).rank_lt) (sound_drain req w 0)
  refine ⟨k, how, hpos, ?_, fun m m' hm hevents => (attempts_drain hm hevents).1⟩
  unfold Sound at hsound
  rw [hpos] at hsound
  exact hsound

/-- The fake model is such a backend, for whatever deadline and client. -/
theorem exists_world {R : Type} {rt : PyRuntime.Runtime R} {m : DeterministicFakeModel}
    (hm : 0 < m.numTokens) (prompt : String) (expiry : Option Nat) (disconnected : Nat → Bool) :
    ∃ w : World, w.expiry = expiry ∧ w.disconnected = disconnected ∧
      ∀ n, (w.backend n).generation = m.generate rt prompt n := by
  have hattempts : ∀ n, ∃ a : Attempt, m.generate rt prompt n = a.generation :=
    generate_attempt hm prompt
  choose backend hbackend using hattempts
  exact ⟨⟨backend, expiry, disconnected⟩, rfl, rfl, fun n => (hbackend n).symm⟩

/-- A retried attempt, then one that fails in the middle of its stream. -/
example :
    let e : BackendError := ⟨.permanent, "simulated mid-stream failure"⟩
    let w : World :=
      { backend := fun n => if n < 2 then .fails ⟨.transient, ""⟩ else .streams "a" ["b", "c"] e
        expiry := none
        disconnected := fun _ => false }
    (drain ⟨"REQ-1", "REQ-1", ⟨"m", "v1", "c"⟩⟩ w 13).events
      = [.token "a", .token "b", .token "c", .error "REQ-1" "BACKEND_ERROR"] := rfl

end StreamShape
