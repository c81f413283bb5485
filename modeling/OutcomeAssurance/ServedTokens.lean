import OutcomeAssurance.StreamShape

/-! # What the fake model's clients receive

    `DeterministicFakeModel` behind `stream_generation`: retries, deadlines and
    clients that leave decide how much of the prompt's digest a client gets, and
    nothing else.  Every stream is a beginning of the same text, in the same
    pieces. -/

namespace ServedTokens

open ModelBackend PyRuntime Runs StreamShape Streaming

variable {R : Type} {rt : Runtime R} {m : DeterministicFakeModel} {req : GenerationRequest}
  {w : World} {s : Stream} {prompt : String} {tokens : List String} {n : Nat}

/-! ## The pieces of a digest -/

/-- Pieces in a row are a beginning of the text. -/
theorem pieces_eq_take (digest : String) (span n : Nat) :
    ((List.range n).map fun k => piece digest (span * k) span).flatMap String.toList =
      digest.toList.take (span * n) := by
  induction n with
  | zero => simp
  | succ n ih =>
      rw [List.range_succ, List.map_append, List.flatMap_append, ih, Nat.mul_succ, List.take_add]
      rw [List.map_singleton, List.flatMap_singleton, piece, String.toList_ofList]

theorem tokens_text (h : m.tokensFor rt prompt = .ok tokens) :
    tokens.flatMap String.toList <+: (rt.sha256 prompt).toList := by
  rw [DeterministicFakeModel.tokensFor] at h
  split at h
  · cases h
  · obtain rfl := Except.ok.inj h
    rw [pieces_eq_take]
    exact List.take_prefix _ _

/-! ## The attempts of the fake model -/

/-- The world's backend is the fake model, asked for the prompt. -/
def Serves (rt : Runtime R) (m : DeterministicFakeModel) (prompt : String) (w : World) : Prop :=
  ∀ n, (w.backend n).generation = m.generate rt prompt n

theorem tokens_of_generation {a : Attempt} {g : Generation} (h : a.generation = g) :
    a.tokens = g.tokens := by
  rw [← h]
  cases a <;> rfl

/-- An attempt yields the tokens of the prompt, or the first of them. -/
theorem generate_prefix (h : m.tokensFor rt prompt = .ok tokens) (attempt : Nat) :
    (m.generate rt prompt attempt).tokens <+: tokens := by
  rw [DeterministicFakeModel.generate]
  split
  · exact List.nil_prefix
  · split
    · exact List.nil_prefix
    · rw [h]
      dsimp only
      split
      · exact List.take_prefix _ _
      · exact List.prefix_rfl

/-- An attempt that ends without an exception has yielded all of them. -/
theorem generate_complete (h : m.tokensFor rt prompt = .ok tokens) {attempt : Nat}
    (hending : (m.generate rt prompt attempt).ending = none) :
    (m.generate rt prompt attempt).tokens = tokens := by
  rw [DeterministicFakeModel.generate] at hending ⊢
  split at hending
  · cases hending
  · next htransient =>
      rw [if_neg htransient]
      split at hending
      · cases hending
      · next hpermanent =>
          rw [if_neg hpermanent]
          rw [h] at hending ⊢
          dsimp only at hending ⊢
          split at hending
          · cases hending
          · next hmid => rw [if_neg hmid]

theorem Serves.tokens_prefix (h : Serves rt m prompt w)
    (htokens : m.tokensFor rt prompt = .ok tokens) (n : Nat) : w.tokens n <+: tokens := by
  rw [World.tokens, tokens_of_generation (h n)]
  exact generate_prefix htokens n

theorem Serves.tokens_eq (h : Serves rt m prompt w) (htokens : m.tokensFor rt prompt = .ok tokens)
    (hends : EndsNormally w n) : w.tokens n = tokens := by
  obtain ⟨first, rest, hbackend⟩ := hends.ends
  have hgeneration := h n
  have hending : (m.generate rt prompt n).ending = none := by
    rw [← hgeneration, hbackend]
    rfl
  rw [World.tokens, tokens_of_generation hgeneration]
  exact generate_complete htokens hending

/-! ## At every moment -/

/-- What has been yielded: tokens of the last attempt, then an event that is `done`
    only when they are all. -/
structure Yielded (w : World) (s : Stream) (sent : List String) (last : Option SseEvent) :
    Prop where
  events_eq : s.events = sent.map .token ++ last.toList
  sent_prefix : sent <+: w.tokens s.attempts
  complete : ∀ e ∈ last, e.event = "done" →
    EndsNormally w s.attempts ∧ sent = w.tokens s.attempts

theorem yielded_of_sent {sent : List String} (h : Sent w s sent) : Yielded w s sent none where
  events_eq := by rw [h.events_eq, Option.toList_none, List.append_nil]
  sent_prefix := h.sent_prefix
  complete := by
    intro e he
    cases he

theorem yielded_of_drained {sent : List String} {last : Option SseEvent}
    (h : Drained req w s sent last) : Yielded w s sent last where
  events_eq := h.events_eq
  sent_prefix := h.sent_prefix
  complete := by
    intro e he hdone
    have hends : EndsNormally w s.attempts := by
      rcases h.last_cases with hnone | ⟨reason, herror⟩ | hlastDone
      · rw [hnone] at he
        cases he
      · rw [herror] at he
        obtain rfl := Option.some.inj he
        have hname : "error" = "done" := hdone
        exact absurd hname (by decide)
      · exact h.done_iff.mp hlastDone
    exact ⟨hends, h.all_sent hends⟩

theorem yielded_of_sound (h : Sound req w s) : ∃ sent last, Yielded w s sent last := by
  unfold Sound at h
  cases hpos : s.pos with
  | created =>
      rw [hpos] at h
      obtain rfl : s = Stream.start := h
      exact ⟨[], none, rfl, List.nil_prefix, fun e he => by cases he⟩
  | opening n =>
      rw [hpos] at h
      exact ⟨_, _, yielded_of_sent h.toSent⟩
  | backingOff n =>
      rw [hpos] at h
      exact ⟨_, _, yielded_of_sent h.1.toSent⟩
  | tokenYield =>
      rw [hpos] at h
      obtain ⟨sent, h⟩ := h
      exact ⟨_, _, yielded_of_sent h.toSent⟩
  | fetching =>
      rw [hpos] at h
      obtain ⟨sent, h⟩ := h
      exact ⟨_, _, yielded_of_sent h.toSent⟩
  | asking t =>
      rw [hpos] at h
      obtain ⟨sent, h, -⟩ := h
      exact ⟨_, _, yielded_of_sent h.toSent⟩
  | errorYield =>
      rw [hpos] at h
      obtain ⟨sent, last, h⟩ := h
      exact ⟨_, _, yielded_of_drained h⟩
  | doneYield =>
      rw [hpos] at h
      obtain ⟨sent, last, h⟩ := h
      exact ⟨_, _, yielded_of_drained h⟩
  | finished how =>
      rw [hpos] at h
      obtain ⟨sent, last, h⟩ := h
      exact ⟨_, _, yielded_of_drained h⟩
  | abandoned =>
      rw [hpos] at h
      exact h.elim

/-- The client has a beginning of the prompt's tokens, which spell a beginning of
    its digest; and `done` says that it has them all. -/
structure Served (rt : Runtime R) (prompt : String) (tokens : List String)
    (events : List SseEvent) (sent : List String) (last : Option SseEvent) : Prop where
  events_eq : events = sent.map .token ++ last.toList
  sent_prefix : sent <+: tokens
  text_prefix : sent.flatMap String.toList <+: (rt.sha256 prompt).toList
  complete : ∀ e ∈ last, e.event = "done" → sent = tokens

theorem served_of_sound (hserves : Serves rt m prompt w)
    (htokens : m.tokensFor rt prompt = .ok tokens) (h : Sound req w s) :
    ∃ sent last, Served rt prompt tokens s.events sent last := by
  obtain ⟨sent, last, hyielded⟩ := yielded_of_sound h
  have hprefix : sent <+: tokens :=
    hyielded.sent_prefix.trans (hserves.tokens_prefix htokens _)
  have htext : sent.flatMap String.toList <+: tokens.flatMap String.toList := by
    obtain ⟨rest, rfl⟩ := hprefix
    rw [List.flatMap_append]
    exact List.prefix_append _ _
  refine ⟨sent, last, hyielded.events_eq, hprefix, htext.trans (tokens_text htokens), ?_⟩
  intro e he hdone
  obtain ⟨hends, hall⟩ := hyielded.complete e he hdone
  rw [hall, hserves.tokens_eq htokens hends]

/-! ## Without a deadline or a disconnect -/

/-- The deadline does not pass, and the client stays. -/
structure Undisturbed (w : World) : Prop where
  inTime : w.expiry = none
  connected : ∀ i, w.disconnected i = false

theorem Undisturbed.not_expired (h : Undisturbed w) (moment : Nat) : w.expired moment = false := by
  rw [World.expired, h.inTime]

/-- An attempt of the mode either ends normally or is retried. -/
theorem endsNormally_of_undisturbed (hserves : Serves rt m prompt w) (hundisturbed : Undisturbed w)
    (hpos : 0 < m.numTokens) (hmode : m.failMode = none ∨ m.failMode = some .transient ∧ 3 ≤ n) :
    EndsNormally w n := by
  obtain ⟨first, rest, htokens⟩ : ∃ first rest, m.tokensFor rt prompt = .ok (first :: rest) :=
    tokensFor_of_pos hpos prompt
  have hgenerate : m.generate rt prompt n = ⟨first :: rest, none⟩ := by
    rw [DeterministicFakeModel.generate]
    rcases hmode with hmode | ⟨hmode, hn⟩
    · simp [hmode, htokens]
    · have hlate : ¬ n < 3 := by omega
      simp [hmode, hlate, htokens]
  have hgeneration := hserves n
  rw [hgenerate] at hgeneration
  refine ⟨?_, hundisturbed.not_expired _, fun i _ _ => hundisturbed.connected i⟩
  cases hbackend : w.backend n with
  | fails e =>
      rw [hbackend] at hgeneration
      cases hgeneration
  | streams first' rest' ending =>
      rw [hbackend] at hgeneration
      cases ending with
      | none => exact ⟨first', rest', rfl⟩
      | some e => cases hgeneration

/-- A transient failure before the third attempt leads to the next one. -/
theorem opening_next (req : GenerationRequest) (hundisturbed : Undisturbed w)
    (hpos : s.pos = .opening n) (hn : n < 3)
    {message : String} (hfails : w.backend n = .fails ⟨.transient, message⟩) :
    (tick req w (tick req w s)).pos = .opening (n + 1) ∧
      (tick req w (tick req w s)).attempts = n + 1 := by
  have hfirst : tick req w s =
      { s with pos := .backingOff n, effects := s.effects ++ [.retried] } := by
    rw [tick, signalOf_opening hpos, hundisturbed.not_expired]
    simp only [Bool.false_eq_true, if_false, next, hfails, step, hpos, Stream.attemptRaised,
      retryMaxAttempts, hn, and_self, if_true]
  have hsecond : signalOf w (tick req w s) = .slept := by
    rw [hfirst, signalOf_backingOff rfl, hundisturbed.not_expired]
    rfl
  rw [tick, hsecond, hfirst]
  exact ⟨rfl, rfl⟩

/-- The attempts of a call are numbered upwards. -/
theorem attempts_le_tick (h : Sound req w s) : s.attempts ≤ (tick req w s).attempts := by
  have hstepped : Stepped req s (signalOf w s) (step req s (signalOf w s)) := stepped s _
  rw [tick]
  generalize signalOf w s = sig at hstepped
  generalize step req s sig = s' at hstepped
  cases hstepped with
  | opened hpos =>
      unfold Sound at h
      rw [hpos] at h
      obtain rfl : s = Stream.start := h
      exact Nat.zero_le _
  | @reopened n hpos =>
      unfold Sound at h
      rw [hpos] at h
      show s.attempts ≤ n + 1
      rw [h.1.attempts_eq]
      exact Nat.le_succ n
  | _ => exact Nat.le_refl _

theorem attempts_le_drain {k k' : Nat} (hk : k ≤ k') :
    (drain req w k).attempts ≤ (drain req w k').attempts := by
  induction k', hk using Nat.le_induction with
  | base => exact Nat.le_refl _
  | succ k' hk ih =>
      refine Nat.le_trans ih ?_
      rw [drain, drain, Function.iterate_succ_apply', ← drain]
      exact attempts_le_tick (sound_drain req w k')

/-- The third attempt begins when the first two fail transiently. -/
theorem third_attempt (req : GenerationRequest) (hundisturbed : Undisturbed w)
    (hfails : ∀ n, n < 3 → ∃ message, w.backend n = .fails ⟨.transient, message⟩) :
    (drain req w 5).attempts = 3 := by
  have hfirst : (drain req w 1).pos = .opening 1 := by
    show (tick req w Stream.start).pos = _
    rw [tick, signalOf_created rfl, hundisturbed.not_expired]
    rfl
  obtain ⟨_, hone⟩ := hfails 1 (by omega)
  obtain ⟨hpos, -⟩ := opening_next req hundisturbed hfirst (by omega) hone
  obtain ⟨_, htwo⟩ := hfails 2 (by omega)
  exact (opening_next req hundisturbed hpos (by omega) htwo).2

/-- A call that is not disturbed comes to its end with every token and `done`,
    unless the fake model is to fail for good. -/
theorem undisturbed_done (hserves : Serves rt m prompt w) (hundisturbed : Undisturbed w)
    (hm : 0 < m.numTokens) (htokens : m.tokensFor rt prompt = .ok tokens)
    (hmode : m.failMode = none ∨ m.failMode = some .transient) :
    ∃ k how, (drain req w k).pos = .finished how ∧
      (drain req w k).events =
        tokens.map .token ++ [.done req.requestId req.info tokens.length] := by
  -- followed from its fifth resumption, where a third attempt would begin
  obtain ⟨k, ⟨how, hpos⟩, hsound⟩ := exists_iterate_of_rank (rank w)
    (fun s (h : Sound req w s) => sound_tick h)
    (fun s h hunfinished => (advances h hunfinished).rank_lt) (sound_drain req w 5)
  have hdrain : (tick req w)^[k] (drain req w 5) = drain req w (k + 5) :=
    (Function.iterate_add_apply _ k 5 _).symm
  rw [hdrain] at hpos hsound
  unfold Sound at hsound
  rw [hpos] at hsound
  obtain ⟨sent, last, hdrained⟩ := hsound
  have hends : EndsNormally w (drain req w (k + 5)).attempts := by
    refine endsNormally_of_undisturbed hserves hundisturbed hm (hmode.imp id fun htransient => ?_)
    have hfails : ∀ n, n < 3 → ∃ message, w.backend n = .fails ⟨.transient, message⟩ := by
      intro n hn
      have hgeneration := hserves n
      rw [DeterministicFakeModel.generate, if_pos ⟨htransient, hn⟩] at hgeneration
      cases hbackend : w.backend n with
      | fails e =>
          rw [hbackend] at hgeneration
          refine ⟨s!"simulated transient failure (attempt {n})", congrArg _ ?_⟩
          exact Fault.backend.inj (Option.some.inj (congrArg Generation.ending hgeneration))
      | streams first rest ending =>
          rw [hbackend] at hgeneration
          cases hgeneration
    refine ⟨htransient, ?_⟩
    rw [← third_attempt req hundisturbed hfails]
    exact attempts_le_drain (Nat.le_add_left 5 k)
  refine ⟨k + 5, how, hpos, ?_⟩
  have hall : sent = tokens :=
    (hdrained.all_sent hends).trans (hserves.tokens_eq htokens hends)
  rw [hdrained.events_eq, hdrained.done_iff.mpr hends, hall]
  rfl

/-- **WHAT THE CLIENT GETS**: in every world of the fake model, whatever its
    deadline and its client, a call has at every moment yielded a beginning of
    the prompt's tokens, and `done` only behind all of them; and undisturbed it
    yields them all and `done`, unless the model is to fail for good. -/
theorem fake_model_served (rt : Runtime R) (m : DeterministicFakeModel) (hm : 0 < m.numTokens)
    (prompt : String) (req : GenerationRequest) (w : World) (hserves : Serves rt m prompt w) :
    ∃ tokens, m.tokensFor rt prompt = .ok tokens ∧
      (∀ k, ∃ sent last, Served rt prompt tokens (drain req w k).events sent last) ∧
      (Undisturbed w → m.failMode = none ∨ m.failMode = some .transient →
        ∃ k how, (drain req w k).pos = .finished how ∧ (drain req w k).events =
          tokens.map .token ++ [.done req.requestId req.info tokens.length]) := by
  obtain ⟨first, rest, htokens⟩ : ∃ first rest, m.tokensFor rt prompt = .ok (first :: rest) :=
    tokensFor_of_pos hm prompt
  refine ⟨first :: rest, htokens, fun k => ?_, fun hundisturbed hmode => ?_⟩
  · exact served_of_sound hserves htokens (sound_drain req w k)
  · exact undisturbed_done hserves hundisturbed hm htokens hmode

/-- Two transient failures are not noticed by the client. -/
theorem transient_model_served :
    let m : DeterministicFakeModel := { failMode := some .transient, info := ⟨"m", "v1", "c"⟩ }
    let req : GenerationRequest := ⟨"REQ-1", "REQ-1", m.info⟩
    ∃ w tokens, m.tokensFor (default : Runtime Float) "hello" = .ok tokens ∧
      ∃ k how, (drain req w k).pos = .finished how ∧ (drain req w k).events =
        tokens.map .token ++ [.done "REQ-1" m.info tokens.length] := by
  intro m req
  have hm : 0 < m.numTokens := by decide
  obtain ⟨w, hexpiry, hdisconnected, hworld⟩ : ∃ w : World, w.expiry = none ∧
      w.disconnected = (fun _ => false) ∧ Serves (default : Runtime Float) m "hello" w :=
    exists_world hm "hello" none _
  have hundisturbed : Undisturbed w := ⟨hexpiry, fun i => by rw [hdisconnected]⟩
  obtain ⟨tokens, htokens, -, hdone⟩ := fake_model_served default m hm "hello" req w hworld
  exact ⟨w, tokens, htokens, hdone hundisturbed (Or.inr rfl)⟩

end ServedTokens
