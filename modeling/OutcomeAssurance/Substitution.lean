import OutcomeAssurance.PatternMatches

/-! # Substitution

    What replacing the matches of a pattern leaves of the others.  Where the
    replacement is put in brackets, no match reaches across it; and where the
    replaced text lies between word boundaries, a boundary at the rim of a
    bracket was one before. -/

namespace Backtracking

variable {isWord : Char → Bool} {r s q : Pattern} {b b' a a' : Option Char} {x l out : List Char}

/-! ## The text as it is rewritten -/

variable (isWord) in
/-- The text with some match replaced at each place that has one. -/
inductive Substituted (r : Pattern) (replacement : List Char) :
    Option Char → List Char → List Char → Prop where
  | nil {b : Option Char} : Substituted r replacement b [] []
  | keep {b : Option Char} {c : Char} {l out : List Char} :
      (∀ x post, c :: l = x ++ post → ¬ Matches isWord r b x post.head?) →
      Substituted r replacement (some c) l out →
      Substituted r replacement b (c :: l) (c :: out)
  | replace {b : Option Char} {x post out : List Char} :
      Matches isWord r b x post.head? →
      Substituted r replacement (x.getLast?.or b) post out →
      Substituted r replacement b (x ++ post) (replacement ++ out)

theorem subFrom_skip (replacement : List Char) (x l : List Char) (b : Option Char) :
    subFrom isWord r replacement b x.length (x ++ l)
      = subFrom isWord r replacement (x.getLast?.or b) 0 l := by
  induction x generalizing b with
  | nil => rfl
  | cons c x ih =>
      rw [List.length_cons, List.cons_append, subFrom, ih, last_cons]

/-- The first way through a match is the one that is replaced. -/
theorem subFrom_match (replacement : List Char) {place : Place} {places : List Place}
    (hx : x ≠ []) (hends : ends isWord r ⟨b, x ++ place.rest⟩ = place :: places) :
    subFrom isWord r replacement b 0 (x ++ place.rest)
      = replacement ++ subFrom isWord r replacement (x.getLast?.or b) 0 place.rest := by
  obtain ⟨c, y, rfl⟩ := List.exists_cons_of_ne_nil hx
  rw [List.cons_append] at hends
  rw [List.cons_append, subFrom, hends]
  show replacement ++ subFrom isWord r replacement (some c)
    ((y ++ place.rest).length - place.rest.length) (y ++ place.rest) = _
  rw [List.length_append, Nat.add_sub_cancel, subFrom_skip, ← last_cons c y b]

theorem substituted_subFrom {p : Char → Bool} (hneeds : Needs p r) (replacement : List Char)
    (b : Option Char) (l : List Char) :
    Substituted isWord r replacement b l (subFrom isWord r replacement b 0 l) := by
  induction hn : l.length using Nat.strongRecOn generalizing b l with
  | ind n ih =>
      cases l with
      | nil => exact .nil
      | cons c l =>
          cases hends : ends isWord r ⟨b, c :: l⟩ with
          | nil =>
              rw [subFrom, hends]
              exact .keep (ends_eq_nil.mp hends) (ih l.length (hn ▸ Nat.lt_succ_self _) _ l rfl)
          | cons place places =>
              have hplace : place ∈ ends isWord r ⟨b, c :: l⟩ := hends ▸ List.mem_cons_self
              obtain ⟨x, hl, -, hmatch⟩ := (mem_ends r b _).mp hplace
              have hx := hneeds.ne_nil hmatch
              rw [hl] at hends hn ⊢
              rw [subFrom_match replacement hx hends]
              refine .replace hmatch (ih place.rest.length ?_ _ _ rfl)
              rw [← hn, List.length_append]
              have hpos := List.length_pos_of_ne_nil hx
              omega

/-! ## Word boundaries -/

/-- Nothing is asked of the characters around a match. -/
def Plain : Pattern → Prop
  | .one _ => True
  | .many _ _ => True
  | .opt r => Plain r
  | .seq r s => Plain r ∧ Plain s
  | .alt r s => Plain r ∧ Plain s
  | .boundary => False

/-- A word boundary is asked for at the end, and nowhere else. -/
def Closed : Pattern → Prop
  | .one _ => False
  | .many _ _ => False
  | .opt _ => False
  | .seq r s => Plain r ∧ Closed s
  | .alt _ _ => False
  | .boundary => True

variable (isWord) in
/-- The matches are the texts of a language between two word boundaries. -/
def Fenced (r : Pattern) : Prop :=
  ∃ L : List Char → Prop, ∀ b x a, Matches isWord r b x a ↔
    L x ∧ Edge isWord b (x.head?.or a) ∧ Edge isWord (x.getLast?.or b) a

theorem Plain.matches (h : Plain r) (hmatch : Matches isWord r b x a) (b' a' : Option Char) :
    Matches isWord r b' x a' := by
  induction r generalizing b x a b' a' with
  | one p => exact hmatch
  | many min p => exact hmatch
  | opt r ih => exact hmatch.imp_left fun hr => ih h hr b' a'
  | seq r s ihr ihs =>
      obtain ⟨y, z, rfl, hr, hs⟩ := hmatch
      exact ⟨y, z, rfl, ihr h.1 hr _ _, ihs h.2 hs _ _⟩
  | alt r s ihr ihs =>
      exact hmatch.imp (fun hr => ihr h.1 hr b' a') fun hs => ihs h.2 hs b' a'
  | boundary => exact h.elim

theorem Closed.matches (h : Closed s) :
    ∃ L : List Char → Prop, ∀ b x a, Matches isWord s b x a ↔
      L x ∧ Edge isWord (x.getLast?.or b) a := by
  induction s with
  | one p => exact h.elim
  | many min p => exact h.elim
  | opt r => exact h.elim
  | alt r s => exact h.elim
  | boundary =>
      refine ⟨fun x => x = [], fun b x a => ?_⟩
      rw [matches_boundary]
      refine and_congr_right ?_
      rintro rfl
      exact Iff.rfl
  | seq r s ihr ihs =>
      obtain ⟨L, hL⟩ := ihs h.2
      refine ⟨fun x => ∃ y z, x = y ++ z ∧ Matches isWord r none y none ∧ L z, fun b x a => ?_⟩
      rw [matches_seq]
      constructor
      · rintro ⟨y, z, rfl, hr, hs⟩
        obtain ⟨hz, hedge⟩ := (hL _ z a).mp hs
        refine ⟨⟨y, z, rfl, h.1.matches hr none none, hz⟩, ?_⟩
        rwa [List.getLast?_append, Option.or_assoc]
      · rintro ⟨⟨y, z, rfl, hr, hz⟩, hedge⟩
        rw [List.getLast?_append, Option.or_assoc] at hedge
        exact ⟨y, z, rfl, h.1.matches hr _ _, (hL _ z a).mpr ⟨hz, hedge⟩⟩

theorem Closed.fenced (h : Closed s) : Fenced isWord (.seq .boundary s) := by
  have hclosed : ∃ L : List Char → Prop, ∀ b x a, Matches isWord s b x a ↔
      L x ∧ Edge isWord (x.getLast?.or b) a := h.matches
  obtain ⟨L, hL⟩ := hclosed
  refine ⟨L, fun b x a => ?_⟩
  rw [matches_seq]
  constructor
  · rintro ⟨_, z, rfl, ⟨rfl, hfirst⟩, hs⟩
    obtain ⟨hz, hlast⟩ := (hL _ z a).mp hs
    exact ⟨hz, hfirst, hlast⟩
  · rintro ⟨hx, hfirst, hlast⟩
    exact ⟨[], x, rfl, ⟨rfl, hfirst⟩, (hL _ x a).mpr ⟨hx, hlast⟩⟩

/-- A match stands between other characters as well, if they leave the word
    boundaries it asks for. -/
theorem Matches.transfer (hq : Plain q ∨ Fenced isWord q) (hmatch : Matches isWord q b' x a')
    (hne : x ≠ []) (hb : Plain q ∨ b' = b ∨ Edge isWord b x.head?)
    (ha : Plain q ∨ a' = a ∨ Edge isWord (x.getLast?.or b) a) : Matches isWord q b x a := by
  rcases hq with hplain | ⟨L, hL⟩
  · exact hplain.matches hmatch b a
  · by_cases hplain : Plain q
    · exact hplain.matches hmatch b a
    · obtain ⟨hx, hfirst, hlast⟩ := (hL b' x a').mp hmatch
      obtain ⟨c, y, rfl⟩ := List.exists_cons_of_ne_nil hne
      rw [last_cons] at hlast ha
      refine (hL b _ a).mpr ⟨hx, ?_, ?_⟩
      · rcases hb.resolve_left hplain with rfl | hedge
        · exact hfirst
        · exact hedge
      · rw [last_cons]
        rcases ha.resolve_left hplain with rfl | hedge
        · exact hlast
        · exact hedge

/-! ## Brackets -/

/-- A stretch without the character lies on one side of it. -/
theorem split_of_notMem {c : Char} {pre x post g t : List Char} (hc : c ∉ x)
    (h : pre ++ (x ++ post) = g ++ c :: t) :
    (∃ post', g = pre ++ (x ++ post') ∧ post = post' ++ c :: t) ∨
      ∃ pre', pre = g ++ c :: pre' ∧ t = pre' ++ (x ++ post) := by
  rcases List.append_eq_append_iff.mp h with ⟨z, rfl, hz⟩ | ⟨z, rfl, hz⟩
  · left
    rcases List.append_eq_append_iff.mp hz with ⟨w, rfl, rfl⟩ | ⟨w, rfl, hw⟩
    · exact ⟨w, rfl, rfl⟩
    · cases w with
      | nil => exact ⟨[], by simp, hw.symm⟩
      | cons d w =>
          obtain ⟨rfl, -⟩ := List.cons.inj hw
          exact absurd (List.mem_append_right z List.mem_cons_self) hc
  · cases z with
    | cons d z =>
        obtain ⟨rfl, ht⟩ := List.cons.inj hz
        exact Or.inr ⟨z, rfl, ht⟩
    | nil =>
        left
        cases x with
        | nil => exact ⟨[], by simp, hz.symm⟩
        | cons d x =>
            obtain ⟨rfl, -⟩ := List.cons.inj hz
            exact absurd List.mem_cons_self hc

variable {o e : Char} {body : List Char}

/-- What the rewritten text starts with outside of brackets, the text started
    with as well, up to a place where a match begins. -/
theorem Substituted.start {rest : List Char} (h : Substituted isWord r (o :: rest) b l out)
    (hr : Plain q ∨ Fenced isWord r) {post : List Char} (hout : out = x ++ post) (ho : o ∉ x) :
    ∃ post', l = x ++ post' ∧
      (Plain q ∨ post.head? = post'.head? ∨ Edge isWord (x.getLast?.or b) post'.head?) := by
  induction h generalizing x with
  | nil =>
      obtain ⟨rfl, rfl⟩ := List.append_eq_nil_iff.mp hout.symm
      exact ⟨[], rfl, Or.inr (Or.inl rfl)⟩
  | @keep b c l out hno hsub ih =>
      cases x with
      | nil =>
          obtain rfl : c :: out = post := hout
          exact ⟨c :: l, rfl, Or.inr (Or.inl rfl)⟩
      | cons d x =>
          obtain ⟨rfl, hrest⟩ := List.cons.inj hout
          obtain ⟨post', rfl, hhead⟩ := ih hrest fun hx => ho (List.mem_cons_of_mem _ hx)
          exact ⟨post', rfl, last_cons c x b ▸ hhead⟩
  | @replace b y l out hmatch hsub ih =>
      cases x with
      | cons d x =>
          obtain ⟨rfl, -⟩ := List.cons.inj hout
          exact absurd List.mem_cons_self ho
      | nil =>
          refine ⟨y ++ l, rfl, hr.imp_right ?_⟩
          rintro ⟨L, hL⟩
          right
          rw [List.head?_append]
          exact ((hL b y _).mp hmatch).2.1

/-- **BRACKETS KEEP CLEAN**: no match of a pattern is left that the text did not
    have, and none of the pattern that was replaced. -/
theorem Substituted.clean {p : Char → Bool} (h : Substituted isWord r (o :: (body ++ [e])) b l out)
    (hneeds : Needs p q) (hbody : ∀ c ∈ body, p c = false)
    (honly : Only (fun c => c ≠ o ∧ c ≠ e) q)
    (hbounds : Plain q ∨ Fenced isWord q ∧ Fenced isWord r)
    (hq : q = r ∨ ¬ Occurs isWord q b l) (hb : Plain q ∨ b' = b ∨ Edge isWord b l.head?) :
    ¬ Occurs isWord q b' out := by
  have outside {b x a} (hmatch : Matches isWord q b x a) : o ∉ x ∧ e ∉ x := by
    have hx := honly.forall_mem hmatch
    exact ⟨fun ho => (of_decide_eq_true (hx o ho)).1 rfl,
      fun he => (of_decide_eq_true (hx e he)).2 rfl⟩
  induction h generalizing b' with
  | nil =>
      rintro ⟨pre, x, post, hout, hmatch⟩
      have hx := (List.append_eq_nil_iff.mp (List.append_eq_nil_iff.mp hout.symm).2).1
      exact hneeds.ne_nil hmatch hx
  | @keep b c l out hno hsub ih =>
      rintro ⟨pre, x, post, hout, hmatch⟩
      cases pre with
      | nil =>
          -- the match was one of the text itself
          have hout : c :: out = x ++ post := hout
          have hne := hneeds.ne_nil hmatch
          obtain ⟨post', hl, ha⟩ := (Substituted.keep hno hsub).start
            (hbounds.imp_right And.right) hout (outside hmatch).1
          have hfirst : x.head? = some c := by
            obtain ⟨d, y, rfl⟩ := List.exists_cons_of_ne_nil hne
            exact congrArg some (List.cons.inj hl).1.symm
          rw [List.head?_cons, ← hfirst] at hb
          have hmatch := Matches.transfer (hbounds.imp_right And.left) hmatch hne hb ha
          rcases hq with rfl | hq
          · exact hno x post' hl hmatch
          · exact hq ⟨[], x, post', hl, hmatch⟩
      | cons d pre =>
          obtain ⟨rfl, hrest⟩ := List.cons.inj hout
          exact ih (hq.imp_right (mt (Occurs.append [c]))) (Or.inr (Or.inl rfl))
            ⟨pre, x, post, hrest, last_cons c pre b' ▸ hmatch⟩
  | @replace b y l out hreplaced hsub ih =>
      rintro ⟨pre, x, post, hout, hmatch⟩
      obtain ⟨ho, he⟩ := outside hmatch
      have hne := hneeds.ne_nil hmatch
      rcases split_of_notMem (g := []) ho hout.symm with ⟨post', hnil, -⟩ | ⟨pre, rfl, hrest⟩
      · have hx := (List.append_eq_nil_iff.mp (List.append_eq_nil_iff.mp hnil.symm).2).1
        exact hne hx
      · have hrest : body ++ e :: out = pre ++ (x ++ post) :=
          (List.append_assoc body [e] out).symm.trans hrest
        rcases split_of_notMem he hrest.symm with ⟨post', hin, -⟩ | ⟨pre, rfl, hafter⟩
        · -- within the brackets there is nothing the pattern needs
          obtain ⟨c, hc, hp⟩ := hneeds.exists_mem hmatch
          have hc : c ∈ body := by
            rw [hin]
            exact List.mem_append_right _ (List.mem_append_left _ hc)
          rw [hbody c hc] at hp
          cases hp
        · have hclean : ¬ Occurs isWord q (some e) out := by
            refine ih (hq.imp_right (mt (Occurs.append y))) (hbounds.imp_right fun hfenced => ?_)
            obtain ⟨L, hL⟩ := hfenced.2
            exact Or.inr ((hL b y _).mp hreplaced).2.2
          refine hclean ⟨pre, x, post, hafter, ?_⟩
          rwa [List.nil_append, last_cons, List.getLast?_append, Option.or_assoc, last_cons]
            at hmatch

end Backtracking
