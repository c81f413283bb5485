import OutcomeAssurance.CaseApi

/-! # The token map

    `_load_token_map` of `app/auth.py` reads the principals from one environment
    variable, `token:reviewer_id:role` entries between commas.  Who is let in is
    said by the variable alone: the last entry that begins with the token. -/

namespace TokenMap

open PyDict PyText ReviewModel CaseApi

variable {tokens : Dict String Principal} {token raw : String} {p : Principal} {cs : List Char}

/-! ## Reading an entry -/

/-- What is before and after the first separator. -/
def cutAt (sep : Char) : List Char → Option (List Char × List Char)
  | [] => none
  | c :: cs => if c = sep then some ([], cs) else (cutAt sep cs).map fun q => (c :: q.1, q.2)

theorem cutAt_eq_some {sep : Char} {a b : List Char} :
    cutAt sep cs = some (a, b) ↔ cs = a ++ sep :: b ∧ sep ∉ a := by
  induction cs generalizing a with
  | nil => simp [cutAt]
  | cons c cs ih =>
      rw [cutAt]
      by_cases hc : c = sep
      · rw [if_pos hc]
        constructor
        · intro h
          obtain ⟨rfl, rfl⟩ := Prod.mk.inj (Option.some.inj h)
          exact ⟨by rw [hc]; rfl, List.not_mem_nil⟩
        · rintro ⟨heq, hout⟩
          cases a with
          | nil => rw [(List.cons.inj heq).2]
          | cons x a =>
              refine absurd ?_ hout
              rw [← (List.cons.inj heq).1, hc]
              exact List.mem_cons_self
      · rw [if_neg hc, Option.map_eq_some_iff]
        constructor
        · rintro ⟨⟨a', b'⟩, hcut, heq⟩
          obtain ⟨rfl, rfl⟩ := Prod.mk.inj heq
          obtain ⟨rfl, hout⟩ := ih.mp hcut
          exact ⟨rfl, List.not_mem_cons_of_ne_of_not_mem (Ne.symm hc) hout⟩
        · rintro ⟨heq, hout⟩
          cases a with
          | nil => exact absurd (List.cons.inj heq).1 hc
          | cons x a =>
              obtain ⟨rfl, rfl⟩ := List.cons.inj heq
              exact ⟨(a, b), ih.mpr ⟨rfl, List.not_mem_of_not_mem_cons hout⟩, rfl⟩

theorem cutAt_eq_none {sep : Char} : cutAt sep cs = none ↔ cs.count sep = 0 := by
  induction cs with
  | nil => simp [cutAt]
  | cons c cs ih =>
      rw [cutAt]
      by_cases hc : c = sep
      · simp [hc]
      · simp [hc, ih]

/-- `entry.split(":", 2)` into three names; there is no result where the
    unpacking raises `ValueError`. -/
def fieldsOf (entry : String) : Option (String × Principal) :=
  match cutAt ':' entry.toList with
  | none => none
  | some (token, rest) =>
      match cutAt ':' rest with
      | none => none
      | some (reviewerId, role) =>
          some (String.ofList token, ⟨String.ofList reviewerId, String.ofList role⟩)

/-- `token:reviewer_id:role`. -/
def entryOf (token : String) (p : Principal) : String :=
  token ++ ":" ++ p.reviewerId ++ ":" ++ p.role

theorem toList_entryOf (token : String) (p : Principal) :
    (entryOf token p).toList =
      token.toList ++ ':' :: (p.reviewerId.toList ++ ':' :: p.role.toList) := by
  simp [entryOf]

theorem fieldsOf_eq_some {entry : String} :
    fieldsOf entry = some (token, p) ↔
      entry = entryOf token p ∧ ':' ∉ token.toList ∧ ':' ∉ p.reviewerId.toList := by
  rw [← String.toList_inj, toList_entryOf]
  constructor
  · intro h
    rw [fieldsOf] at h
    split at h
    · cases h
    · next t rest hcut =>
        split at h
        · cases h
        · next r role hcut' =>
            obtain ⟨heq, ht⟩ := cutAt_eq_some.mp hcut
            obtain ⟨rfl, hr⟩ := cutAt_eq_some.mp hcut'
            obtain ⟨rfl, rfl⟩ := Prod.mk.inj (Option.some.inj h)
            simp only [String.toList_ofList]
            exact ⟨heq, ht, hr⟩
  · rintro ⟨heq, ht, hr⟩
    rw [fieldsOf, cutAt_eq_some.mpr ⟨heq, ht⟩]
    simp only [cutAt_eq_some.mpr ⟨rfl, hr⟩, String.ofList_toList]

/-- An entry is refused when it has fewer than two separators. -/
theorem fieldsOf_eq_none {entry : String} :
    fieldsOf entry = none ↔ entry.toList.count ':' < 2 := by
  rw [fieldsOf]
  cases hcut : cutAt ':' entry.toList with
  | none =>
      have hcount := cutAt_eq_none.mp hcut
      exact iff_of_true rfl (by omega)
  | some q =>
      obtain ⟨t, rest⟩ := q
      obtain ⟨heq, ht⟩ := cutAt_eq_some.mp hcut
      rw [heq, List.count_append, List.count_eq_zero_of_not_mem ht, List.count_cons_self]
      cases hcut' : cutAt ':' rest with
      | none =>
          have hcount := cutAt_eq_none.mp hcut'
          refine iff_of_true ?_ (by omega)
          simp only [hcut']
      | some q' =>
          have hcount : rest.count ':' ≠ 0 := fun h => by
            rw [cutAt_eq_none.mpr h] at hcut'
            cases hcut'
          refine iff_of_false (fun h => ?_) (by omega)
          dsimp only at h
          rw [hcut'] at h
          cases h

/-! ## Reading the variable -/

/-- One round of the loop over `raw.split(",")`. -/
def loadEntry (tokens : Dict String Principal) (field : List Char) :
    Option (Dict String Principal) :=
  let entry := strip (String.ofList field)
  if entry = "" then some tokens
  else match fieldsOf entry with
    | none => none
    | some (token, principal) => some (tokens.set token principal)

/-- `_load_token_map`; there is no result where it raises, so that the process
    does not start. -/
def loadTokenMap : Option String → Option (Dict String Principal)
  | none => some defaultTokens
  | some raw =>
      if raw = "" then some defaultTokens
      else (raw.toList.splitOn ',').foldlM loadEntry ∅

/-- The entries that the loop reads, in order. -/
def entriesOf (raw : String) : List String :=
  ((raw.toList.splitOn ',').map fun field => strip (String.ofList field)).filter (· ≠ "")

/-- The loop assigns the entries one after the other, or stops at one it cannot
    unpack. -/
theorem foldlM_loadEntry (fields : List (List Char)) (pairs : List (String × Principal)) :
    fields.foldlM loadEntry (Dict.ofPairs pairs) =
      (((fields.map fun field => strip (String.ofList field)).filter (· ≠ "")).mapM
        fieldsOf).map fun more => Dict.ofPairs (pairs ++ more) := by
  induction fields generalizing pairs with
  | nil => simp
  | cons field fields ih =>
      rw [List.foldlM_cons, List.map_cons, List.filter_cons, loadEntry]
      by_cases hempty : strip (String.ofList field) = ""
      · simp only [hempty, if_true, Option.bind_eq_bind, Option.bind_some, ne_eq, not_true_eq_false,
          decide_false, Bool.false_eq_true, if_false]
        exact ih pairs
      · simp only [hempty, if_false, ne_eq, not_false_eq_true, decide_true, if_true, List.mapM_cons]
        cases hfields : fieldsOf (strip (String.ofList field)) with
        | none => rfl
        | some q =>
            have hstep : (Dict.ofPairs pairs).set q.1 q.2 = Dict.ofPairs (pairs ++ [q]) :=
              (Dict.ofPairs_concat pairs q).symm
            simp only [Option.bind_eq_bind, Option.bind_some, hstep, ih]
            cases ((fields.map fun field => strip (String.ofList field)).filter _).mapM
              fieldsOf with
            | none => rfl
            | some more => simp

theorem loadTokenMap_some (h : raw ≠ "") :
    loadTokenMap (some raw) = ((entriesOf raw).mapM fieldsOf).map Dict.ofPairs := by
  rw [loadTokenMap, if_neg h]
  exact foldlM_loadEntry _ []

/-- **WHAT LOADS**: a value is refused exactly when one of its entries has fewer
    than two colons. -/
theorem loads_iff (h : raw ≠ "") :
    (∃ tokens, loadTokenMap (some raw) = some tokens) ↔
      ∀ entry ∈ entriesOf raw, 2 ≤ entry.toList.count ':' := by
  have hsome : ∀ entries : List String, (∃ pairs, entries.mapM fieldsOf = some pairs) ↔
      ∀ entry ∈ entries, 2 ≤ entry.toList.count ':' := by
    intro entries
    induction entries with
    | nil => simp
    | cons entry entries ih =>
        rw [List.forall_mem_cons, ← ih, List.mapM_cons]
        cases hfields : fieldsOf entry with
        | none =>
            have hcount := fieldsOf_eq_none.mp hfields
            refine iff_of_false ?_ fun hall => by omega
            rintro ⟨pairs, hpairs⟩
            cases hpairs
        | some q =>
            have hcount : 2 ≤ entry.toList.count ':' := by
              by_contra hlt
              rw [fieldsOf_eq_none.mpr (by omega)] at hfields
              cases hfields
            rw [and_iff_right hcount]
            cases hmap : entries.mapM fieldsOf with
            | none => simp
            | some pairs => simp
  rw [loadTokenMap_some h, ← hsome]
  cases (entriesOf raw).mapM fieldsOf with
  | none => simp
  | some pairs => simp

/-- The pairs are the entries, read one by one. -/
theorem entries_of_pairs {entries : List String} {pairs : List (String × Principal)}
    (h : entries.mapM fieldsOf = some pairs) :
    entries = pairs.map (fun q => entryOf q.1 q.2) ∧
      ∀ q ∈ pairs, ':' ∉ q.1.toList ∧ ':' ∉ q.2.reviewerId.toList := by
  induction entries generalizing pairs with
  | nil =>
      obtain rfl := Option.some.inj h
      exact ⟨rfl, fun q hq => absurd hq List.not_mem_nil⟩
  | cons entry entries ih =>
      rw [List.mapM_cons] at h
      cases hfields : fieldsOf entry with
      | none =>
          rw [hfields] at h
          cases h
      | some q =>
          obtain ⟨token, principal⟩ := q
          cases hmap : entries.mapM fieldsOf with
          | none =>
              rw [hfields, hmap] at h
              cases h
          | some more =>
              rw [hfields, hmap] at h
              obtain rfl := Option.some.inj h
              obtain ⟨rfl, hfree⟩ := ih hmap
              obtain ⟨rfl, htoken, hreviewer⟩ := fieldsOf_eq_some.mp hfields
              exact ⟨rfl, List.forall_mem_cons.mpr ⟨⟨htoken, hreviewer⟩, hfree⟩⟩

/-- The entry is one of the token: it begins with the token and a colon. -/
def OfToken (token entry : String) : Prop := (token ++ ":").toList <+: entry.toList

theorem ofToken_entryOf {t : String} (ht : ':' ∉ t.toList) (htoken : ':' ∉ token.toList) :
    OfToken token (entryOf t p) ↔ t = token := by
  rw [OfToken, toList_entryOf, String.toList_append]
  constructor
  · rintro ⟨rest, hrest⟩
    have hlist : token.toList ++ ':' :: rest =
        t.toList ++ ':' :: (p.reviewerId.toList ++ ':' :: p.role.toList) := by
      rw [← hrest]
      simp
    have hcut := cutAt_eq_some.mpr ⟨hlist, ht⟩
    rw [cutAt_eq_some.mpr ⟨rfl, htoken⟩] at hcut
    exact (String.toList_inj.mp (Prod.mk.inj (Option.some.inj hcut)).1).symm
  · rintro rfl
    exact ⟨p.reviewerId.toList ++ ':' :: p.role.toList, by simp⟩

/-- The variable names the principal of a token: in the last entry of the token. -/
def Configured (raw token : String) (p : Principal) : Prop :=
  ':' ∉ token.toList ∧ ':' ∉ p.reviewerId.toList ∧
    ∃ before after, entriesOf raw = before ++ entryOf token p :: after ∧
      ∀ entry ∈ after, ¬ OfToken token entry

/-- **THE MAP IS THE VARIABLE**: a token is stored with the principal that the
    last of its entries names. -/
theorem get_loaded (h : raw ≠ "") (hload : loadTokenMap (some raw) = some tokens) :
    tokens.get token = some p ↔ Configured raw token p := by
  rw [loadTokenMap_some h] at hload
  obtain ⟨pairs, hpairs, rfl⟩ := Option.map_eq_some_iff.mp hload
  obtain ⟨hentries, hfree⟩ := entries_of_pairs hpairs
  rw [Dict.get_ofPairs, Configured, hentries]
  constructor
  · rintro ⟨before, after, rfl, hlast⟩
    obtain ⟨htoken, hreviewer⟩ := hfree (token, p) (by simp)
    refine ⟨htoken, hreviewer, before.map (fun q => entryOf q.1 q.2),
      after.map (fun q => entryOf q.1 q.2), by simp, ?_⟩
    intro entry hentry hof
    obtain ⟨q, hq, rfl⟩ := List.mem_map.mp hentry
    exact hlast q hq ((ofToken_entryOf (hfree q (by simp [hq])).1 htoken).mp hof)
  · rintro ⟨htoken, hreviewer, before, after, hsplit, hlast⟩
    obtain ⟨before', rest, rfl, rfl, hrest⟩ := List.map_eq_append_iff.mp hsplit
    obtain ⟨q, after', rfl, hq, rfl⟩ := List.map_eq_cons_iff.mp hrest
    obtain ⟨t, principal⟩ := q
    have hread := fieldsOf_eq_some.mpr ⟨rfl, hfree (t, principal) (by simp)⟩
    have hq : entryOf t principal = entryOf token p := hq
    rw [hq, fieldsOf_eq_some.mpr ⟨rfl, htoken, hreviewer⟩] at hread
    obtain ⟨rfl, rfl⟩ := Prod.mk.inj (Option.some.inj hread)
    refine ⟨before', after', rfl, fun q' hq' heq => ?_⟩
    refine hlast _ (List.mem_map_of_mem hq') ?_
    exact (ofToken_entryOf (hfree q' (by simp [hq'])).1 htoken).mpr heq

/-! ## Who is let in -/

theorem requireAuth_eq_ok {authorization : Option String} :
    requireAuth tokens authorization = .ok p ↔
      ∃ rest, authorization = some (bearer ++ rest) ∧ tokens.get (strip rest) = some p := by
  cases authorization with
  | none =>
      refine iff_of_false (fun h => by cases h) ?_
      rintro ⟨rest, h, -⟩
      cases h
  | some header =>
      rw [requireAuth]
      constructor
      · intro h
        split at h
        · next hprefix =>
            obtain ⟨rest, hrest⟩ := hprefix
            have hdrop : header.toList.drop bearer.length = rest := by
              rw [← hrest]
              rfl
            rw [hdrop] at h
            split at h
            · next principal hget =>
                obtain rfl := Except.ok.inj h
                refine ⟨String.ofList rest, congrArg some ?_, hget⟩
                rw [← String.toList_inj, String.toList_append, String.toList_ofList, hrest]
            · cases h
        · cases h
      · rintro ⟨rest, heq, hget⟩
        obtain rfl := Option.some.inj heq
        have hdrop : (bearer ++ rest).toList.drop bearer.length = rest.toList := by
          rw [String.toList_append]
          rfl
        rw [if_pos (by rw [String.toList_append]; exact List.prefix_append _ _), hdrop,
          String.ofList_toList, hget]

/-- The variable names the principal of a token.  Unset or empty, it stands for
    the development token. -/
def Names (raw : Option String) (token : String) (p : Principal) : Prop :=
  if raw.getD "" = "" then
    token = "dev-local-demo-token" ∧ p = ⟨"demo-reviewer", "retail-operations"⟩
  else Configured (raw.getD "") token p

theorem loadTokenMap_empty {value : Option String} (h : value.getD "" = "") :
    loadTokenMap value = some defaultTokens := by
  cases value with
  | none => rfl
  | some raw => exact if_pos h

theorem get_defaultTokens :
    defaultTokens.get token = some p ↔
      token = "dev-local-demo-token" ∧ p = ⟨"demo-reviewer", "retail-operations"⟩ := by
  rw [← Dict.mem_items, defaultTokens, List.mem_singleton, Prod.mk.injEq]

/-- **WHO IS LET IN**: the process starts exactly when every entry of the
    variable has its two colons; and then a header is let in, as a principal,
    exactly when the last entry of the token it bears names the principal, or,
    without the variable, when it bears the development token. -/
theorem let_in_iff (value : Option String) :
    ((∃ tokens, loadTokenMap value = some tokens) ↔
        ∀ entry ∈ entriesOf (value.getD ""), 2 ≤ entry.toList.count ':') ∧
      ∀ tokens, loadTokenMap value = some tokens → ∀ authorization p,
        (requireAuth tokens authorization = .ok p ↔
          ∃ rest, authorization = some (bearer ++ rest) ∧ Names value (strip rest) p) := by
  by_cases h : value.getD "" = ""
  · have hload := loadTokenMap_empty h
    constructor
    · rw [h]
      exact iff_of_true ⟨_, hload⟩ (by decide)
    · intro tokens htokens authorization p
      obtain rfl := Option.some.inj (hload.symm.trans htokens)
      rw [requireAuth_eq_ok]
      refine exists_congr fun rest => and_congr_right fun _ => ?_
      rw [get_defaultTokens, Names, if_pos h]
  · obtain ⟨raw, rfl⟩ : ∃ raw, value = some raw := by
      cases value with
      | none => exact absurd rfl h
      | some raw => exact ⟨raw, rfl⟩
    refine ⟨loads_iff h, fun tokens hload authorization p => ?_⟩
    rw [requireAuth_eq_ok]
    refine exists_congr fun rest => and_congr_right fun _ => ?_
    rw [get_loaded h hload, Names, if_neg h]

def documented : String := "token1:alice:retail-operations,token2:bob:retail-operations"

/-- The documented value lets both its reviewers in, and nobody else. -/
theorem documented_lets_in :
    ∃ tokens, loadTokenMap (some documented) = some tokens ∧ ∀ authorization p,
      (requireAuth tokens authorization = .ok p ↔
        ∃ rest, authorization = some (bearer ++ rest) ∧
          Names (some documented) (strip rest) p) := by
  obtain ⟨hloads, hlets⟩ := let_in_iff (some documented)
  have hcolons : ∀ entry ∈ entriesOf documented, 2 ≤ entry.toList.count ':' := by decide
  obtain ⟨tokens, hload⟩ := hloads.mpr hcolons
  exact ⟨tokens, hload, hlets tokens hload⟩

/-! ## Writing the variable -/

/-- Pairs of tokens and principals as the variable holds them. -/
def render (pairs : List (String × Principal)) : String :=
  String.ofList ([','].intercalate (pairs.map fun q => (entryOf q.1 q.2).toList))

/-- The pair survives in an entry: no separator in it, and no blank around it. -/
structure Plain (q : String × Principal) : Prop where
  token : ':' ∉ q.1.toList
  reviewerId : ':' ∉ q.2.reviewerId.toList
  noComma : ',' ∉ (entryOf q.1 q.2).toList
  stripped : strip (entryOf q.1 q.2) = entryOf q.1 q.2

theorem entryOf_ne_empty (token : String) (p : Principal) : entryOf token p ≠ "" := by
  intro h
  have hlist := congrArg String.toList h
  rw [toList_entryOf] at hlist
  simp at hlist

theorem render_ne_empty {pairs : List (String × Principal)} (h : pairs ≠ []) :
    render pairs ≠ "" := by
  intro hempty
  have hlist : [','].intercalate (pairs.map fun q => (entryOf q.1 q.2).toList) = [] := by
    rw [← String.toList_ofList (l := List.intercalate _ _)]
    exact congrArg String.toList hempty
  have hfirst : ∀ q : String × Principal, (entryOf q.1 q.2).toList ≠ [] := fun q h =>
    entryOf_ne_empty q.1 q.2 (String.toList_inj.mp h)
  cases pairs with
  | nil => exact h rfl
  | cons q pairs =>
      cases pairs with
      | nil => exact hfirst q (by rwa [List.map_singleton, List.intercalate_singleton] at hlist)
      | cons q' pairs =>
          rw [List.map_cons, List.map_cons, List.intercalate_cons_cons, List.append_eq_nil_iff,
            List.append_eq_nil_iff] at hlist
          exact hfirst q hlist.1.1

/-- **A ROUND TRIP**: what is written from plain pairs loads as the same map. -/
theorem load_render (pairs : List (String × Principal)) (hne : pairs ≠ [])
    (hplain : ∀ q ∈ pairs, Plain q) :
    loadTokenMap (some (render pairs)) = some (Dict.ofPairs pairs) := by
  have hentries : entriesOf (render pairs) = pairs.map fun q => entryOf q.1 q.2 := by
    rw [entriesOf, render, String.toList_ofList, List.splitOn_intercalate]
    · rw [List.map_map, List.filter_eq_self.mpr]
      · refine List.map_congr_left fun q hq => ?_
        show strip (String.ofList (entryOf q.1 q.2).toList) = _
        rw [String.ofList_toList, (hplain q hq).stripped]
      · intro entry hentry
        obtain ⟨q, hq, rfl⟩ := List.mem_map.mp hentry
        show decide (strip (String.ofList (entryOf q.1 q.2).toList) ≠ "") = true
        rw [String.ofList_toList, (hplain q hq).stripped]
        exact decide_eq_true (entryOf_ne_empty _ _)
    · intro field hfield
      obtain ⟨q, hq, rfl⟩ := List.mem_map.mp hfield
      exact (hplain q hq).noComma
    · simpa using hne
  have hread : ∀ more : List (String × Principal), (∀ q ∈ more, Plain q) →
      (more.map fun q => entryOf q.1 q.2).mapM fieldsOf = some more := by
    intro more hmore
    induction more with
    | nil => rfl
    | cons q more ih =>
        obtain ⟨hq, hmore⟩ := List.forall_mem_cons.mp hmore
        rw [List.map_cons, List.mapM_cons, fieldsOf_eq_some.mpr ⟨rfl, hq.token, hq.reviewerId⟩,
          ih hmore]
        rfl
  rw [loadTokenMap_some (render_ne_empty hne), hentries, hread pairs hplain]
  rfl

theorem documented_round_trip :
    loadTokenMap (some documented) = some (Dict.ofPairs
      [("token1", ⟨"alice", "retail-operations"⟩), ("token2", ⟨"bob", "retail-operations"⟩)]) := by
  refine load_render [("token1", ⟨"alice", "retail-operations"⟩),
    ("token2", ⟨"bob", "retail-operations"⟩)] (by decide) ?_
  intro q hq
  rcases List.mem_cons.mp hq with rfl | hq
  · exact ⟨by decide, by decide, by decide, by decide⟩
  · obtain rfl := List.mem_singleton.mp hq
    exact ⟨by decide, by decide, by decide, by decide⟩

end TokenMap
