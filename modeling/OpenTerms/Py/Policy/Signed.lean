import OpenTerms.Common.Alike
import OpenTerms.Common.JsonSame
import OpenTerms.Py.HashBinding
import OpenTerms.Py.Policy.Loosening

/-!
# A decision and the signed bytes

Two receipts with one canonical payload hold the same under the signed
names, up to member order and nulls (`sameSigned_of_canonicalize`). The
evaluators read strings, integers and nulls of it, which are then equal;
only a pattern reads the text of a list or of a dict, and that text has
the order and the nulls in it. So a decision is one of the signed bytes
exactly where the patterns match alike (`decision_signed_iff`).
-/

namespace OpenTerms

namespace Py

open Json

/-! ## What is signed -/

/-- The names a signature covers. -/
def signedNames : List PyStr := signedRequired ++ payloadKeysOptional

/-- Two JSON receipts that hold the same under the signed names. -/
structure SameSigned (r r' : PyDict) : Prop where
  unique : UniqueNames (.obj r)
  unique' : UniqueNames (.obj r')
  same : ∀ k ∈ signedNames, SameButNulls (getD k r) (getD k r')

section

variable {r r' : PyDict}

/-- A payload holds what its receipt does under the signed names. -/
theorem getD_buildPayload {p : PyDict} (h : buildPayload r = .ok p) {k : PyStr}
    (hk : k ∈ signedNames) : getD k p = getD k r := by
  have hget := get?_pick signedRequired_disjoint (buildPayload_eq_ok_iff.mp h) k
  unfold getD
  rw [hget]
  by_cases hreq : k ∈ signedRequired
  · rw [if_pos hreq]
  · rw [if_neg hreq, if_pos ((List.mem_append.mp hk).resolve_left hreq)]
    cases get? k r with
    | none => rfl
    | some v =>
      by_cases hv : v = .null
      · subst hv
        rfl
      · simp [Option.filter, isNotNone, hv]

/-- **One canonical payload**, the same receipt where it is signed. -/
theorem sameSigned_of_canonicalize (hr : UniqueNames (.obj r)) (hr' : UniqueNames (.obj r'))
    {p p' : PyDict} {bytes : Bytes} (hp : buildPayload r = .ok p) (hp' : buildPayload r' = .ok p')
    (hb : canonicalize (.obj p) = .ok bytes) (hb' : canonicalize (.obj p') = .ok bytes) :
    SameSigned r r' := by
  have hu := uniqueNames_buildPayload hr hp
  have hu' := uniqueNames_buildPayload hr' hp'
  have hsame : SameButNulls (.obj p) (.obj p') := (canonicalize_inj_iff hu hu' hb hb').mp rfl
  refine ⟨hr, hr', fun k hk => ?_⟩
  have hget := SameButNulls.get? hu hu' hsame k
  rwa [← getD, ← getD, getD_buildPayload hp hk, getD_buildPayload hp' hk] at hget

/-! ## What the evaluators read -/

section

variable {v w : PyVal}

/-- What is read as a string or as an integer, or compared with a string. -/
theorem read_sameButNulls (h : SameButNulls v w) :
    asStr v = asStr w ∧ asInt v = asInt w ∧ (v = .null ↔ w = .null)
      ∧ ∀ s : PyStr, pyEq v (.str s) = pyEq w (.str s) := by
  rcases h.cases with rfl | ⟨xs, ys, rfl, rfl⟩ | ⟨ms, ns, rfl, rfl⟩
  · exact ⟨rfl, rfl, Iff.rfl, fun _ => rfl⟩
  · refine ⟨rfl, rfl, iff_of_false nofun nofun, fun s => ?_⟩
    rw [pyEq_str_right, pyEq_str_right]
    rfl
  · refine ⟨rfl, rfl, iff_of_false nofun nofun, fun s => ?_⟩
    rw [pyEq_str_right, pyEq_str_right]
    rfl

theorem isIn_sameButNulls (h : SameButNulls v w) (ss : List PyStr) : isIn v ss = isIn w ss := by
  unfold Py.isIn
  exact congrArg _ (funext (read_sameButNulls h).2.2.2)

/-- **A walk** from what is the same ends on what is the same. -/
theorem walkPath_sameButNulls (hv : UniqueNames v) (hw : UniqueNames w) (h : SameButNulls v w)
    (parts : List PyStr) : SameButNulls (walkPath parts v) (walkPath parts w) := by
  induction parts generalizing v w with
  | nil => exact h
  | cons part parts ih =>
    rcases h.cases with rfl | ⟨xs, ys, rfl, rfl⟩ | ⟨ms, ns, rfl, rfl⟩
    · cases v with
      | obj ms =>
        rw [walkPath_obj]
        exact ih (uniqueNames_getD hv part) (uniqueNames_getD hv part) (SameButNulls.get? hv hv h part)
      | null | bool | num | str | arr => trivial
    · trivial
    · rw [walkPath_obj, walkPath_obj]
      exact ih (uniqueNames_getD hv part) (uniqueNames_getD hw part) (SameButNulls.get? hv hw h part)

end

/-- The path starts with a signed name. -/
def SignedPath (path : PyStr) : Prop := ∃ k ∈ signedNames, (path.splitOn (chr '.')).head? = some k

/-- **A signed path** leads to the same in both. -/
theorem resolvePath_signed (h : SameSigned r r') {path : PyStr} (hpath : SignedPath path) :
    SameButNulls (resolvePath r path) (resolvePath r' path) := by
  obtain ⟨k, hk, hhead⟩ := hpath
  unfold resolvePath
  by_cases hnil : path = []
  · rw [if_pos hnil, if_pos hnil]
    trivial
  rw [if_neg hnil, if_neg hnil]
  cases hsplit : path.splitOn (chr '.') with
  | nil =>
    rw [hsplit] at hhead
    cases hhead
  | cons first parts =>
    rw [hsplit, List.head?_cons, Option.some.injEq] at hhead
    subst hhead
    rw [walkPath_obj, walkPath_obj]
    exact walkPath_sameButNulls (uniqueNames_getD h.unique first) (uniqueNames_getD h.unique' first)
      (h.same first hk) parts

end

/-! ## The rules -/

/-- What a rule looks up starts with a signed name. -/
structure SignedPaths (R : Rule) : Prop where
  source : R.type = .urlPrefixAllowlist ∨ R.type = .urlPrefixDenylist →
    ∀ path, get? (lit "source_field") R.parameters = some (.str path) → SignedPath path
  pattern : R.type = .argsPatternMatch →
    ∀ pats, get? (lit "patterns") R.parameters = some (.arr pats) → ∀ pat, .obj pat ∈ pats →
      ∀ path, get? (lit "path") pat = some (.str path) → SignedPath path
  field : R.type = .postStateAssertion →
    ∀ path, get? (lit "field") R.parameters = some (.str path) → SignedPath path

section

variable [Ucd]

/-- The operator matches the text of what is at the path. -/
def Matches (receipt : PyDict) (pat : PyVal) : Prop :=
  ∃ ms path op value, pat = .obj ms ∧ getD (lit "path") ms = .str path
    ∧ getD (lit "op") ms = .str op ∧ getD (lit "value") ms = .str value
    ∧ matchOne op value (resolvePath receipt path) = .ok true

/-- Some of the patterns match, or all of them do. -/
def PatternsMatch (receipt : PyDict) (pats : List PyVal) : MatchMode → Prop
  | .any => ∃ pat ∈ pats, Matches receipt pat
  | .all => ∀ pat ∈ pats, Matches receipt pat

/-- The patterns of the rule, where it has any, match on both receipts or on
neither. -/
def MatchedAlike (R : Rule) (r r' : PyDict) : Prop :=
  R.type = .argsPatternMatch → ∀ pats mode, patternParams R = .ok (pats, mode) →
    (PatternsMatch r pats mode ↔ PatternsMatch r' pats mode)

section

variable {r r' aggregates : PyDict} {R : Rule}

/-- A pattern that is taken matches as `match_one` says. -/
theorem hits_iff_matches {pat : PyVal} {hit : Option (PyStr × PyStr)}
    (h : matchPattern R r pat = .ok hit) : Hits R r pat ↔ Matches r pat := by
  unfold Hits Matches
  rw [h]
  unfold matchPattern at h
  cases pat with
  | obj ms =>
    dsimp only at h
    cases hpath : getD (lit "path") ms with
    | str path =>
      cases hvalue : getD (lit "value") ms with
      | str value =>
        rw [hpath, hvalue] at h
        simp only [asStr] at h
        cases hop : oneOf PatternOp.text validOps (getD (lit "op") ms) with
        | none =>
          rw [hop] at h
          cases h
        | some op =>
          rw [hop] at h
          dsimp only at h
          obtain ⟨matched, hmatched, h⟩ := bind_eq_ok_iff.mp h
          obtain rfl := Except.ok.inj h
          have htext := (eq_text_of_oneOf hop)
          constructor
          · rintro ⟨p, hp⟩
            cases matched with
            | false => cases hp
            | true => exact ⟨ms, path, _, value, rfl, hpath, htext, hvalue, hmatched⟩
          · rintro ⟨ms', path', op', value', hms, hpath', hop', hvalue', htrue⟩
            cases hms
            cases hpath.symm.trans hpath'
            cases htext.symm.trans hop'
            cases hvalue.symm.trans hvalue'
            cases hmatched.symm.trans htrue
            exact ⟨(path, value), rfl⟩
      | null | bool | num | arr | obj =>
        rw [hpath, hvalue] at h
        cases h
    | null | bool | num | arr | obj =>
      rw [hpath] at h
      cases h
  | null | bool | num | str | arr => cases h

/-- Both fire, or neither. -/
def FiredAlike (x y : RuleResult) : Prop := x.fired = y.fired

omit [Ucd] in
theorem firedAlike_ite {p q : Prop} [Decidable p] [Decidable q] (hpq : p ↔ q)
    (reason reason' : PyStr) :
    Alike FiredAlike (if p then .ok (fires reason) else .ok notFired : Except PyErr RuleResult)
      (if q then .ok (fires reason') else .ok notFired : Except PyErr RuleResult) := by
  by_cases hp : p
  · rw [if_pos hp, if_pos (hpq.mp hp)]
    exact alike_ok rfl
  · rw [if_neg hp, if_neg (mt hpq.mpr hp)]
    exact alike_ok rfl

theorem amount_signed (h : SameSigned r r') (id : PyStr) : amount r id = amount r' id := by
  have hint := (read_sameButNulls (h.same (lit "amount_charged") (by decide))).2.1
  unfold amount
  rw [hint]

omit [Ucd] in
theorem isIn_actionType (h : SameSigned r r') (ss : List PyStr) :
    isIn (getD (lit "action_type") r) ss = isIn (getD (lit "action_type") r') ss :=
  isIn_sameButNulls (h.same (lit "action_type") (by decide)) ss

omit [Ucd] in
/-- Under `action_context` everything is signed. -/
theorem signedPath_context {path : String}
    (h : ((lit path : PyStr).splitOn (chr '.')).head? = some (lit "action_context")) :
    SignedPath (lit path) := ⟨lit "action_context", by decide, h⟩

omit [Ucd] in
/-- A parameter that is a path, or else the default one. -/
theorem signedPath_of_getD {key : PyStr} {default path : PyStr} (hdefault : SignedPath default)
    (hR : ∀ path, get? key R.parameters = some (.str path) → SignedPath path)
    (h : asStr ((get? key R.parameters).getD (.str default)) = some path) : SignedPath path := by
  cases hget : get? key R.parameters with
  | none =>
    rw [hget] at h
    obtain rfl := Option.some.inj h
    exact hdefault
  | some v =>
    rw [hget] at h
    cases v with
    | str s =>
      obtain rfl := Option.some.inj h
      exact hR s hget
    | null | bool | num | arr | obj => cases h

theorem urlSource_signed (h : SameSigned r r')
    (hR : ∀ path, get? (lit "source_field") R.parameters = some (.str path) → SignedPath path) :
    Alike (fun a b => asStr a.2 = asStr b.2) (urlSource R r) (urlSource R r') := by
  have hdefault : SignedPath (lit "terms_url") :=
    ⟨lit "terms_url", by decide, by decide⟩
  unfold urlSource
  cases hfield : asStr ((get? (lit "source_field") R.parameters).getD (.str (lit "terms_url"))) with
  | none => exact alike_error _ _
  | some sourceField =>
    have hpath := signedPath_of_getD hdefault hR hfield
    exact alike_ok (read_sameButNulls (resolvePath_signed h hpath)).1

/-- **An assertion** compares what is the same with a string. -/
theorem evalPostStateAssertion_signed (h : SameSigned r r')
    (hR : ∀ path, get? (lit "field") R.parameters = some (.str path) → SignedPath path) :
    Alike FiredAlike (evalPostStateAssertion R r) (evalPostStateAssertion R r') := by
  unfold evalPostStateAssertion
  cases hparams : postStateParams R with
  | error e => exact alike_error e e
  | ok params =>
    obtain ⟨field, expected, appliesTo⟩ := params
    have hspec : SignedPath field ∧ (expected = .null ∨ ∃ s, expected = .str s) := by
      unfold postStateParams at hparams
      dsimp only at hparams
      split at hparams
      · cases hparams
      · obtain ⟨hexpected, hparams⟩ := check_eq_ok_iff.mp hparams
        split at hparams
        · rename_i hfield
          cases hparams
          refine ⟨signedPath_of_getD (signedPath_context (by decide)) hR hfield, ?_⟩
          rw [raiseWhen_eq_ok_iff] at hexpected
          generalize getD (lit "expected_hash") R.parameters = expected at hexpected ⊢
          cases expected with
          | null => exact .inl rfl
          | str s => exact .inr ⟨s, rfl⟩
          | bool | num | arr | obj => exact absurd ⟨nofun, rfl⟩ hexpected
        · cases hparams
    obtain ⟨hpath, hexpected⟩ := hspec
    obtain ⟨-, -, hnull, heq⟩ := read_sameButNulls (resolvePath_signed h hpath)
    rw [ok_bind, ok_bind]
    dsimp only
    by_cases hr : resolvePath r field = .null
    · rw [if_pos hr, if_pos (hnull.mp hr)]
      cases appliesTo <;> exact alike_ok rfl
    · rw [if_neg hr, if_neg (mt hnull.mpr hr)]
      rcases hexpected with rfl | ⟨s, rfl⟩
      · exact alike_ok rfl
      · have hstr : (Json.str s : PyVal) ≠ .null := nofun
        rw [if_neg hstr, if_neg hstr, heq s]
        exact firedAlike_ite Iff.rfl _ _

/-! ### Patterns -/

/-- Whether a pattern can be read is up to the pattern. -/
theorem alike_matchPattern (r r' : PyDict) (pat : PyVal) :
    Alike (fun _ _ => True) (matchPattern R r pat) (matchPattern R r' pat) := by
  unfold matchPattern
  split
  · split
    · split
      · exact alike_error _ _
      · rename_i path value _ _ _ op _
        obtain ⟨matched, hmatched⟩ := matchOne_text op value (resolvePath r path)
        obtain ⟨matched', hmatched'⟩ := matchOne_text op value (resolvePath r' path)
        rw [hmatched, hmatched']
        exact alike_ok trivial
    · exact alike_error _ _
  · exact alike_error _ _

theorem alike_matchingPatterns (r r' : PyDict) (pats : List PyVal) :
    Alike (fun _ _ => True) (matchingPatterns R r pats) (matchingPatterns R r' pats) := by
  induction pats with
  | nil => exact alike_ok trivial
  | cons pat pats ih =>
    exact (alike_matchPattern r r' pat).bind fun _ _ _ => ih.bind fun _ _ _ => alike_ok trivial

theorem matchPattern_ok {pats : List PyVal} {hits : List (PyStr × PyStr)}
    (h : matchingPatterns R r pats = .ok hits) {pat : PyVal} (hpat : pat ∈ pats) :
    ∃ hit, matchPattern R r pat = .ok hit := by
  induction pats generalizing hits with
  | nil => cases hpat
  | cons p pats ih =>
    obtain ⟨hit, hhit, h⟩ := bind_eq_ok_iff.mp h
    obtain ⟨rest, hrest, -⟩ := bind_eq_ok_iff.mp h
    rcases List.mem_cons.mp hpat with rfl | hpat
    · exact ⟨hit, hhit⟩
    · exact ih hrest hpat

/-- **A rule of patterns** fires where they match. -/
theorem argsPatternMatch_alike (r r' : PyDict) (htype : R.type = .argsPatternMatch) :
    Alike (fun x y => (x.fired = true ↔ y.fired = true) ↔ MatchedAlike R r r')
      (argsPatternMatch R r) (argsPatternMatch R r') := by
  unfold argsPatternMatch
  cases hparams : patternParams R with
  | error e => exact alike_error e e
  | ok params =>
    obtain ⟨pats, mode⟩ := params
    rw [ok_bind, ok_bind]
    have hpats : pats ≠ [] := (patternParams_eq_ok hparams).2.1
    have hfired {receipt : PyDict} {hits : List (PyStr × PyStr)}
        (hhits : matchingPatterns R receipt pats = .ok hits) :
        (patternResult pats mode hits).fired = true ↔ PatternsMatch receipt pats mode := by
      have hiff : ∀ pat ∈ pats, (Hits R receipt pat ↔ Matches receipt pat) := fun pat hpat => by
        obtain ⟨hit, hhit⟩ := matchPattern_ok hhits hpat
        exact hits_iff_matches hhit
      rw [patternResult_fired hpats mode hhits]
      cases mode with
      | any => exact exists_congr fun pat => and_congr_right (hiff pat)
      | all => exact forall₂_congr hiff
    dsimp only
    cases hhits : matchingPatterns R r pats with
    | error e =>
      have halike := alike_matchingPatterns (R := R) r r' pats
      rw [hhits] at halike
      cases hhits' : matchingPatterns R r' pats with
      | error e' => exact alike_error e e'
      | ok hits' =>
        rw [hhits'] at halike
        exact halike.elim
    | ok hits =>
      have halike := alike_matchingPatterns (R := R) r r' pats
      rw [hhits] at halike
      cases hhits' : matchingPatterns R r' pats with
      | error e' =>
        rw [hhits'] at halike
        exact halike.elim
      | ok hits' =>
        refine alike_ok ?_
        rw [hfired hhits, hfired hhits']
        refine ⟨fun hiff _ pats' mode' heq => ?_, fun hall => hall htype pats mode hparams⟩
        cases hparams.symm.trans heq
        exact hiff

/-! ### All of them -/

/-- **What a rule says** of two receipts that are the same where they are
signed: it raises on both, or it fires alike exactly if its patterns, where
it has any, match alike. -/
theorem ruleSays_signed (h : SameSigned r r') (hR : SignedPaths R) :
    Alike (fun x y => (x.fired = true ↔ y.fired = true) ↔ MatchedAlike R r r')
      (ruleSays R r aggregates) (ruleSays R r' aggregates) := by
  -- a rule without patterns has nothing to match
  have plain (htype : R.type ≠ .argsPatternMatch) {x y : Except PyErr RuleResult}
      (hxy : Alike FiredAlike x y) :
      Alike (fun x y => (x.fired = true ↔ y.fired = true) ↔ MatchedAlike R r r') x y :=
    hxy.imp fun a b hab => iff_of_true (by rw [hab]) fun hargs => absurd hargs htype
  have htool := read_sameButNulls (resolvePath_signed h
    (show SignedPath toolIdPath from signedPath_context (by decide)))
  unfold ruleSays
  cases htype : R.type with
  | argsPatternMatch => exact argsPatternMatch_alike r r' htype
  | maxAmount =>
    refine plain (by simp [htype]) ?_
    unfold evalMaxAmount
    rw [amount_signed h]
    exact (alike_self _).imp fun _ _ hab => congrArg _ hab
  | dailyLimit =>
    refine plain (by simp [htype]) ?_
    unfold evalDailyLimit
    rw [amount_signed h]
    exact (alike_self _).imp fun _ _ hab => congrArg _ hab
  | escalationThreshold =>
    refine plain (by simp [htype]) ?_
    unfold evalEscalationThreshold
    rw [amount_signed h]
    exact (alike_self _).imp fun _ _ hab => congrArg _ hab
  | actionTypeAllowlist =>
    refine plain (by simp [htype]) ?_
    refine (alike_self _).bind fun allowed _ heq => ?_
    subst heq
    dsimp only
    rw [isIn_actionType h]
    exact firedAlike_ite Iff.rfl _ _
  | actionTypeDenylist =>
    refine plain (by simp [htype]) ?_
    refine (alike_self _).bind fun denied _ heq => ?_
    subst heq
    dsimp only
    rw [isIn_actionType h]
    exact firedAlike_ite Iff.rfl _ _
  | urlPrefixAllowlist =>
    refine plain (by simp [htype]) ?_
    refine (alike_self _).bind fun allowed _ heq => ?_
    subst heq
    refine (urlSource_signed h (hR.source (.inl htype))).bind fun a b hab => ?_
    dsimp only
    rw [hab]
    exact firedAlike_ite Iff.rfl _ _
  | urlPrefixDenylist =>
    refine plain (by simp [htype]) ?_
    refine (alike_self _).bind fun denied _ heq => ?_
    subst heq
    refine (urlSource_signed h (hR.source (.inr htype))).bind fun a b hab => ?_
    dsimp only
    rw [hab]
    split
    · exact alike_ok rfl
    · exact alike_ok rfl
  | toolIdAllowlist =>
    refine plain (by simp [htype]) ?_
    refine (alike_self _).bind fun allowed _ heq => ?_
    subst heq
    dsimp only
    obtain ⟨-, -, hnull, -⟩ := htool
    by_cases hr : resolvePath r toolIdPath = .null
    · rw [if_pos hr, if_pos (hnull.mp hr)]
      exact alike_ok rfl
    · rw [if_neg hr, if_neg (mt hnull.mpr hr)]
      rw [isIn_sameButNulls (resolvePath_signed h
        (show SignedPath toolIdPath from signedPath_context (by decide)))]
      exact firedAlike_ite Iff.rfl _ _
  | postStateAssertion =>
    refine plain (by simp [htype]) ?_
    exact evalPostStateAssertion_signed h (hR.field htype)

/-- What is no list and no dict. -/
def Scalar (v : PyVal) : Prop := (∀ xs, v ≠ .arr xs) ∧ ∀ ms, v ≠ .obj ms

/-- **Patterns that lead to no list and no dict** match alike. -/
theorem matchedAlike_of_scalar (h : SameSigned r r') (hR : SignedPaths R)
    (hscalar : ∀ pats, get? (lit "patterns") R.parameters = some (.arr pats) → ∀ pat, .obj pat ∈ pats →
      ∀ path, get? (lit "path") pat = some (.str path) → Scalar (resolvePath r path)) :
    MatchedAlike R r r' := by
  intro htype pats mode hparams
  have hget := (patternParams_eq_ok hparams).1
  have hmatches : ∀ pat ∈ pats, (Matches r pat ↔ Matches r' pat) := by
    intro pat hpat
    unfold Matches
    refine exists_congr fun ms => exists_congr fun path => exists_congr fun op =>
      exists_congr fun value => and_congr_right fun hms => and_congr_right fun hpath => ?_
    subst hms
    have hpath' : get? (lit "path") ms = some (.str path) := by
      unfold getD at hpath
      cases hsome : get? (lit "path") ms with
      | none =>
        rw [hsome] at hpath
        cases hpath
      | some v =>
        rw [hsome] at hpath
        exact congrArg some hpath
    have hsame := resolvePath_signed h (hR.pattern htype pats hget ms hpat path hpath')
    have hvalue := hscalar pats hget ms hpat path hpath'
    rcases hsame.cases with heq | ⟨xs, ys, heq, -⟩ | ⟨ms', ns, heq, -⟩
    · rw [heq]
    · exact absurd heq (hvalue.1 xs)
    · exact absurd heq (hvalue.2 ms')
  cases mode with
  | any => exact exists_congr fun pat => and_congr_right (hmatches pat)
  | all => exact forall₂_congr hmatches

end

/-! ## The decision -/

/-- The same decision for the same rules, or an exception twice. -/
def DecidesAlike : Except PyErr Decision → Except PyErr Decision → Prop :=
  Alike fun D D' => D.decision = D'.decision ∧ D.triggeredRules = D'.triggeredRules

section

variable {r r' aggregates : PyDict} {pol : Policy}

/-- What is recorded of a rule. -/
theorem recorded_effect {R : Rule} {x : RuleResult} (hx : ruleSays R r aggregates = .ok x) :
    (Trail.recorded (firing r aggregates) R).map effect
      = if x.fired then some (R.id, R.outcome) else none := by
  unfold Trail.recorded firing
  rw [hx, ok_bind]
  dsimp only
  unfold record
  by_cases hfired : x.fired = true
  · rw [if_pos hfired, if_pos hfired]
    rfl
  · rw [if_neg hfired, if_neg hfired]
    rfl

theorem recorded_error {R : Rule} {e : PyErr} (hx : ruleSays R r aggregates = .error e) :
    (Trail.recorded (firing r aggregates) R).map effect = none := by
  unfold Trail.recorded firing
  rw [hx]
  rfl

/-- Rules that fire alike are recorded alike. -/
theorem effects_eq {rules : List Rule}
    (h : ∀ R ∈ rules, Alike (fun x y => x.fired = true ↔ y.fired = true) (ruleSays R r aggregates)
      (ruleSays R r' aggregates)) :
    (Trail.entries (firing r aggregates) rules).map effect
      = (Trail.entries (firing r' aggregates) rules).map effect := by
  unfold Trail.entries
  rw [List.map_filterMap, List.map_filterMap]
  refine List.filterMap_congr fun R hR => ?_
  have hfired := h R hR
  cases hx : ruleSays R r aggregates with
  | error e =>
    cases hy : ruleSays R r' aggregates with
    | error e' => exact (recorded_error hx).trans (recorded_error hy).symm
    | ok y =>
      rw [hx, hy] at hfired
      exact hfired.elim
  | ok x =>
    cases hy : ruleSays R r' aggregates with
    | error e' =>
      rw [hx, hy] at hfired
      exact hfired.elim
    | ok y =>
      rw [hx, hy] at hfired
      rw [recorded_effect hx, recorded_effect hy]
      exact if_congr hfired rfl rfl

omit [Ucd] in
/-- A decision is one of what is recorded. -/
theorem decidesAlike_of_effects {override : Option PyStr}
    {es es' : List (Entry PyStr PyStr DecisionOutcome)} (h : es.map effect = es'.map effect) :
    (decisionOf r pol override es).decision = (decisionOf r' pol override es').decision
      ∧ (decisionOf r pol override es).triggeredRules
        = (decisionOf r' pol override es').triggeredRules := by
  have houtcome (es : List (Entry PyStr PyStr DecisionOutcome)) :
      es.map Entry.outcome = (es.map effect).map Prod.snd := by
    rw [List.map_map]
    rfl
  have hid (es : List (Entry PyStr PyStr DecisionOutcome)) :
      es.map Entry.id = (es.map effect).map Prod.fst := by
    rw [List.map_map]
    rfl
  unfold decisionOf
  dsimp only
  rw [houtcome es, houtcome es', hid es, hid es', h]
  exact ⟨rfl, rfl⟩

/-- A rule that is the only one of its id is recorded where it fires. -/
theorem fires_iff_of_triggered {override : Option PyStr} (hids : (pol.rules.map Rule.id).Nodup)
    {R : Rule} (hR : R ∈ pol.rules) :
    R.id ∈ (decisionOf r pol override
        (Trail.entries (firing r aggregates) pol.rules)).triggeredRules ↔ Fires R r aggregates := by
  refine (@mem_triggered_iff _ r pol aggregates override R.id).trans ⟨?_, fun h => ⟨R, hR, rfl, h⟩⟩
  rintro ⟨R', hR', hid, hfires⟩
  obtain rfl := List.inj_on_of_nodup_map hids hR' hR hid
  exact hfires

end

section

variable {T : Type} [LT T] [DecidableLT T] [Zero T] [Add T]

/-- **When a decision is one of the signed bytes.** An evaluation raises on
both receipts or on neither. Where it does not, patterns that match alike
make it decide alike, and nothing else does in a policy whose rules have
ids of their own. -/
theorem decision_signed_iff {policy : PolicyInput} {aggregates : Option PyDict} {budgetSeconds : T}
    {override : Option PyStr} {clock clock' : Stream' T} {r r' p p' : PyDict} {bytes : Bytes}
    (hbudget : ¬ 0 < budgetSeconds)
    (hpaths : ∀ pol, coercePolicy policy = .ok pol → ∀ R ∈ pol.rules, SignedPaths R)
    (hr : UniqueNames (.obj r)) (hr' : UniqueNames (.obj r'))
    (hp : buildPayload r = .ok p) (hp' : buildPayload r' = .ok p')
    (hb : canonicalize (.obj p) = .ok bytes) (hb' : canonicalize (.obj p') = .ok bytes) :
    (Succeeds (evaluate r policy aggregates budgetSeconds override clock)
        ↔ Succeeds (evaluate r' policy aggregates budgetSeconds override clock'))
      ∧ ∀ pol, coercePolicy policy = .ok pol →
        Succeeds (evaluate r policy aggregates budgetSeconds override clock) →
        ((∀ R ∈ pol.rules, MatchedAlike R r r') →
          DecidesAlike (evaluate r policy aggregates budgetSeconds override clock)
            (evaluate r' policy aggregates budgetSeconds override clock'))
        ∧ ((pol.rules.map Rule.id).Nodup →
          (DecidesAlike (evaluate r policy aggregates budgetSeconds override clock)
              (evaluate r' policy aggregates budgetSeconds override clock')
            ↔ ∀ R ∈ pol.rules, MatchedAlike R r r')) := by
  have hsame := sameSigned_of_canonicalize hr hr' hp hp' hb hb'
  cases hpol : coercePolicy policy with
  | error e =>
    have hraises (receipt : PyDict) (clock : Stream' T) :
        evaluate receipt policy aggregates budgetSeconds override clock = .error e := by
      unfold evaluate
      dsimp only
      rw [if_neg hbudget, evaluateWithContext, hpol]
      rfl
    refine ⟨?_, fun pol hok => by cases hok⟩
    rw [hraises, hraises]
  | ok pol =>
    have hrule : ∀ R ∈ pol.rules,
        Alike (fun x y => (x.fired = true ↔ y.fired = true) ↔ MatchedAlike R r r')
          (ruleSays R r (aggregates.getD [])) (ruleSays R r' (aggregates.getD [])) :=
      fun R hR => ruleSays_signed hsame (hpaths pol hpol R hR)
    have hreturns : (∀ R ∈ pol.rules, Succeeds (ruleSays R r (aggregates.getD [])))
        ↔ ∀ R ∈ pol.rules, Succeeds (ruleSays R r' (aggregates.getD [])) :=
      forall₂_congr fun R hR => (hrule R hR).succeeds_iff
    have heval {receipt : PyDict} {clock : Stream' T} {D : Decision} :=
      @evaluate_eq_ok_iff _ T _ _ receipt policy pol clock _ _ budgetSeconds hpol hbudget aggregates
        override D
    have hsucceeds : Succeeds (evaluate r policy aggregates budgetSeconds override clock)
        ↔ Succeeds (evaluate r' policy aggregates budgetSeconds override clock') := by
      constructor
      · rintro ⟨D, hD⟩
        exact ⟨_, heval.mpr ⟨hreturns.mp (heval.mp hD).1, rfl⟩⟩
      · rintro ⟨D, hD⟩
        exact ⟨_, heval.mpr ⟨hreturns.mpr (heval.mp hD).1, rfl⟩⟩
    refine ⟨hsucceeds, fun pol' hpol' hok => ?_⟩
    obtain rfl := Except.ok.inj hpol'
    obtain ⟨D, hD⟩ := hok
    obtain ⟨hall, rfl⟩ := heval.mp hD
    have hD' := (@heval r' clock' _).mpr ⟨hreturns.mp hall, rfl⟩
    rw [hD, hD']
    have hsufficient (hmatched : ∀ R ∈ pol.rules, MatchedAlike R r r') :
        DecidesAlike (.ok (decisionOf r pol override
            (Trail.entries (firing r (aggregates.getD [])) pol.rules)))
          (.ok (decisionOf r' pol override
            (Trail.entries (firing r' (aggregates.getD [])) pol.rules))) :=
      decidesAlike_of_effects (effects_eq fun R hR =>
        (hrule R hR).imp fun x y hiff => hiff.mpr (hmatched R hR))
    refine ⟨hsufficient, fun hids => ⟨fun halike R hR => ?_, hsufficient⟩⟩
    have hfires : Fires R r (aggregates.getD []) ↔ Fires R r' (aggregates.getD []) := by
      rw [← @fires_iff_of_triggered _ r _ _ override hids R hR,
        ← @fires_iff_of_triggered _ r' _ _ override hids R hR, halike.2]
    obtain ⟨x, hx⟩ := hall R hR
    obtain ⟨y, hy⟩ := hreturns.mp hall R hR
    have hxy := hrule R hR
    rw [hx, hy] at hxy
    refine hxy.mp ?_
    unfold Fires at hfires
    rw [hx, hy] at hfires
    simpa using hfires

end

end

section Sample

attribute [local instance] Ucd.allPrintable

/-- The sample receipt with these two members in its context. -/
def orderedReceipt (a b : String) : PyDict :=
  ofMembers (Sample.receipt (.obj [(lit a, .num (.int 1)), (lit b, .num (.int 1))]))

/-- A rule of one pattern. -/
def patternRule (path value : String) : Rule where
  id := lit "pattern"
  type := .argsPatternMatch
  outcome := .deny
  parameters := [(lit "patterns", .arr [.obj [(lit "path", .str (lit path)),
    (lit "op", .str (lit "equals")), (lit "value", .str (lit value))]])]

def patternPolicy (path value : String) : PolicyInput :=
  .policy { version := lit "v1", rules := [patternRule path value] }

theorem signedPaths_patternRule {path : String} (hpath : SignedPath (lit path)) (value : String) :
    SignedPaths (patternRule path value) where
  source := fun h => by cases h <;> contradiction
  pattern := by
    rintro - pats hpats pat hpat s hs
    cases hpats
    cases List.mem_singleton.mp hpat
    cases hs
    exact hpath
  field := fun h => by cases h

/-- The two receipts are signed by the same bytes. -/
theorem canonicalize_ordered : ∃ p p' bytes,
    buildPayload (orderedReceipt "a" "b") = .ok p ∧ buildPayload (orderedReceipt "b" "a") = .ok p'
      ∧ canonicalize (.obj p) = .ok bytes ∧ canonicalize (.obj p') = .ok bytes :=
  ⟨_, _, _, rfl, rfl, rfl, by decide +kernel⟩

/-- A pattern on one member of the context. -/
theorem decision_signed_sample :
    DecidesAlike
      (evaluate (orderedReceipt "a" "b") (patternPolicy "action_context.a" "1") none (0 : ℕ) none
        (Stream'.const 0))
      (evaluate (orderedReceipt "b" "a") (patternPolicy "action_context.a" "1") none (0 : ℕ) none
        (Stream'.const 0)) := by
  obtain ⟨p, p', bytes, hp, hp', hb, hb'⟩ := canonicalize_ordered
  have hr : UniqueNames (.obj (orderedReceipt "a" "b")) := by decide
  have hr' : UniqueNames (.obj (orderedReceipt "b" "a")) := by decide
  have hrule : SignedPaths (patternRule "action_context.a" "1") :=
    signedPaths_patternRule (signedPath_context (by decide)) "1"
  refine ((decision_signed_iff (by decide) ?_ hr hr' hp hp' hb hb').2 _ rfl ⟨_, rfl⟩).1 ?_
  · rintro pol hpol R hR
    cases hpol
    cases List.mem_singleton.mp hR
    exact hrule
  · intro R hR
    cases List.mem_singleton.mp hR
    refine matchedAlike_of_scalar (sameSigned_of_canonicalize hr hr' hp hp' hb hb') hrule ?_
    intro pats hpats pat hpat path hpath
    cases hpats
    cases List.mem_singleton.mp hpat
    cases hpath
    have hone : resolvePath (orderedReceipt "a" "b") (lit "action_context.a") = .num (.int 1) := by
      decide
    rw [hone]
    exact ⟨nofun, nofun⟩

/-- A pattern on the whole context sees the order of its members. -/
theorem order_decides :
    (∃ p p' bytes,
      buildPayload (orderedReceipt "a" "b") = .ok p ∧ buildPayload (orderedReceipt "b" "a") = .ok p'
        ∧ canonicalize (.obj p) = .ok bytes ∧ canonicalize (.obj p') = .ok bytes)
      ∧ SignedPaths (patternRule "action_context" "\x7b'a': 1, 'b': 1\x7d")
      ∧ ¬ DecidesAlike
        (evaluate (orderedReceipt "a" "b") (patternPolicy "action_context" "\x7b'a': 1, 'b': 1\x7d")
          none (0 : ℕ) none (Stream'.const 0))
        (evaluate (orderedReceipt "b" "a") (patternPolicy "action_context" "\x7b'a': 1, 'b': 1\x7d")
          none (0 : ℕ) none (Stream'.const 0)) := by
  refine ⟨canonicalize_ordered,
    signedPaths_patternRule (signedPath_context (by decide)) _, fun h => ?_⟩
  have hdecision {x y : Except PyErr Decision} (hxy : DecidesAlike x y) :
      x.toOption.map Decision.decision = y.toOption.map Decision.decision := by
    cases x with
    | error e => cases y with
      | error e' => rfl
      | ok b => exact hxy.elim
    | ok a => cases y with
      | error e' => exact hxy.elim
      | ok b => exact congrArg some hxy.1
  have heq := hdecision h
  revert heq
  decide

end Sample

end Py

end OpenTerms
