import OpenTerms.Parity.Paths
import OpenTerms.Parity.PolicyEngine
import OpenTerms.Parity.PolicyWellFormed
import OpenTerms.Parity.Quotes

/-!
# The reasons of a rule that fires in both engines

Where both evaluators of a rule fire, the words of their reasons are the
same and what can differ is what they print. `ReasonsAgree` is the
condition rule by rule, on the receipt and the parameters, and it is
exact (`reasons_agree_iff`).

The two sides are compared where both return (`Meet`): a check that only
one of them makes has then been passed.
-/

namespace OpenTerms

namespace Parity

open Json Utf16

/-! ## Where both return -/

/-- What both return is related. -/
def Meet {α β : Type} (R : α → β → Prop) (x : Except Py.PyErr α) (y : Except Ts.TsErr β) : Prop :=
  ∀ a b, x = .ok a → y = .ok b → R a b

theorem meet_of_alike {α β : Type} {R : α → β → Prop} {x : Except Py.PyErr α} {y : Except Ts.TsErr β}
    (h : Alike R x y) : Meet R x y := by
  rintro a b rfl rfl
  exact h

theorem meet_ok {α β : Type} {R : α → β → Prop} {a : α} {b : β} (h : R a b) :
    Meet R (.ok a) (.ok b) := fun _ _ ha hb => Except.ok.inj ha ▸ Except.ok.inj hb ▸ h

theorem meet_raises {α β : Type} {R : α → β → Prop} (e : Py.PyErr) (y : Except Ts.TsErr β) :
    Meet R (.error e) y := fun _ _ ha => by cases ha

theorem meet_throws {α β : Type} {R : α → β → Prop} (x : Except Py.PyErr α) (id : Ts.JsVal)
    (text : Except Ts.TsErr JsStr) : Meet R x (Ts.ruleError id text) := by
  intro a b _ hb
  obtain ⟨_, -, hb⟩ := bind_eq_ok_iff.mp hb
  obtain ⟨_, -, hb⟩ := bind_eq_ok_iff.mp hb
  cases hb

theorem Meet.bind {α β γ δ : Type} {R : α → β → Prop} {S : γ → δ → Prop} {x : Except Py.PyErr α}
    {y : Except Ts.TsErr β} {f : α → Except Py.PyErr γ} {g : β → Except Ts.TsErr δ}
    (h : Meet R x y) (hf : ∀ a b, R a b → Meet S (f a) (g b)) : Meet S (x >>= f) (y >>= g) := by
  intro c d hc hd
  obtain ⟨a, ha, hc⟩ := bind_eq_ok_iff.mp hc
  obtain ⟨b, hb, hd⟩ := bind_eq_ok_iff.mp hd
  exact hf a b (h a b ha hb) c d hc hd

/-- The reason of the one is the reason of the other, character for
character. -/
def SameReason (a : Py.RuleResult) (b : Ts.RuleResult) : Prop :=
  ∃ t, b.reason = .json (.str t) ∧ a.reason = decode t

/-- Where both fire, the reasons are one exactly under a condition. -/
def Told (C : Prop) : Except Py.PyErr Py.RuleResult → Except Ts.TsErr Ts.RuleResult → Prop :=
  Meet fun a b => a.fired = true → b.fired = true → (SameReason a b ↔ C)

theorem sameReason_fires {s : PyStr} {t : JsStr} :
    SameReason (Py.fires s) (Ts.fires t) ↔ s = decode t := by
  constructor
  · rintro ⟨t', ht, hs⟩
    obtain rfl : t = t' := by
      cases ht
      rfl
    exact hs
  · exact fun hs => ⟨t, rfl, hs⟩

section

variable {C : Prop}

/-- Two lines that fire under their own conditions. -/
theorem Told.ite {p q : Prop} [Decidable p] [Decidable q] {s : PyStr} {t : JsStr}
    (h : p → q → (s = decode t ↔ C)) :
    Told C (if p then .ok (Py.fires s) else .ok Py.notFired)
      (if q then .ok (Ts.fires t) else .ok Ts.notFired) := by
  by_cases hp : p
  · by_cases hq : q
    · rw [if_pos hp, if_pos hq]
      exact meet_ok fun _ _ => sameReason_fires.trans (h hp hq)
    · rw [if_neg hq]
      intro a b _ hb _ hfired
      obtain rfl := Except.ok.inj hb
      cases hfired
  · rw [if_neg hp]
    intro a b ha _ hfired
    obtain rfl := Except.ok.inj ha
    cases hfired

/-- Two lines of which TypeScript's prints a value. -/
theorem Told.print {p q : Prop} [Decidable p] [Decidable q] {v : Ts.JsAny} {s : PyStr}
    {reason : JsStr → JsStr}
    (h : p → q → ∀ text, Ts.pyRepr v = .ok text → (s = decode (reason text) ↔ C)) :
    Told C (if p then .ok (Py.fires s) else .ok Py.notFired)
      (if q then (Ts.pyRepr v >>= fun text => .ok (Ts.fires (reason text)))
        else .ok Ts.notFired) := by
  cases hv : Ts.pyRepr v with
  | ok text => exact Told.ite fun hp hq => h hp hq text hv
  | error e =>
    intro a b _ hb _ hfired
    by_cases hq : q
    · rw [if_pos hq] at hb
      cases hb
    · rw [if_neg hq] at hb
      obtain rfl := Except.ok.inj hb
      cases hfired

end

/-! ## What the reasons print -/

/-- An integer of the document that both languages write alike. -/
def IntPrints (z : ℤ) : Prop := decimal z = decode (Ts.numberToString (Double.ofInt z))

/-- Every safe integer is one. -/
theorem intPrints_safe {z : ℤ} (hz : z.natAbs ≤ 2 ^ 53 - 1) : IntPrints z := by
  change decimal z = decode (Ts.numberToString (Ts.parseNumber (.int z)))
  rw [Ts.parseNumber_int hz, Ts.numberToString_intCast hz, decode_decimal]

/-- The total of a daily limit, which TypeScript rounds. -/
def SumPrints (prior charged : ℤ) : Prop :=
  decimal (prior + charged)
    = decode (Ts.numberToString ((Double.ofInt prior).add (.fin (charged : ℚ))))

/-- The amount supplied for a rule. -/
def priorOf (aggregates : Members) (r : RuleDoc) : ℤ := ((get? r.id aggregates).bind docInt).getD 0

/-- The member a receipt has under a name, `null` where it has none. -/
def memberOf (k : String) (receipt : Members) : Doc := (get? (lit k) receipt).getD .null

/-- The text a receipt has at a path. -/
def textAt (path : JsStr) (receipt : Members) : JsStr := (docStr (located path receipt)).getD []

/-- Whether a computation says yes. -/
def isHit {ε : Type} : Except ε Bool → Bool
  | .ok hit => hit
  | .error _ => false

section

variable [Ucd] {receipt aggregates : Members} {r : RuleDoc}

/-- Whether a pattern matches in Python. -/
def pyHit (receipt : Members) (q : PatternDoc) : Bool :=
  isHit (Py.matchOne (decode q.op) (decode q.value)
    (Py.resolvePath (Py.ofMembers receipt) (decode q.path)))

/-- Whether it matches in TypeScript. -/
def tsHit (receipt : Members) (q : PatternDoc) : Bool :=
  isHit (Ts.matchOne q.op q.value (Ts.resolvePath (Ts.ofMembers receipt) q.path))

/-- The patterns of a rule that match in Python. -/
def pyHits (receipt : Members) (r : RuleDoc) : List PatternDoc :=
  (r.patterns.filterMap PatternDoc.read).filter (pyHit receipt)

/-- The patterns that match in TypeScript. -/
def tsHits (receipt : Members) (r : RuleDoc) : List PatternDoc :=
  (r.patterns.filterMap PatternDoc.read).filter (tsHit receipt)

/-- **When the two reasons of a rule are one**: what they print is printed
alike, and they print the same things. -/
def ReasonsAgree (receipt aggregates : Members) (r : RuleDoc) : Prop :=
  match r.type with
  | .maxAmount | .escalationThreshold =>
    ∀ z, intMember "threshold" r.parameters = some z → IntPrints z
  | .dailyLimit =>
    (∀ z, intMember "amount_charged" receipt = some z → SumPrints (priorOf aggregates r) z)
      ∧ ∀ z, intMember "threshold" r.parameters = some z → IntPrints z
  | .actionTypeAllowlist | .actionTypeDenylist => QuotesDoc (memberOf "action_type" receipt)
  | .urlPrefixAllowlist => ∀ p, r.sourceField = some p → QuotesPy (decode (textAt p receipt))
  | .urlPrefixDenylist => ∀ p, r.sourceField = some p → QuotesPy (decode (textAt p receipt))
      ∧ ∀ us, listParam "denied" r.parameters = some us → ∀ q q',
        us.find? (fun q => (decode q).isPrefixOf (decode (textAt p receipt))) = some q →
        us.find? (fun q => q.isPrefixOf (textAt p receipt)) = some q' →
        q = q' ∧ QuotesPy (decode q)
  | .toolIdAllowlist => QuotesDoc (located Ts.toolIdPath receipt)
  | .argsPatternMatch => (pyHits receipt r).length = (tsHits receipt r).length
      ∧ ∀ q q', (pyHits receipt r).head? = some q → (tsHits receipt r).head? = some q' →
        q.path = q'.path ∧ q.value = q'.value ∧ QuotesPy (decode q.value)
  | .postStateAssertion => ∀ p, r.field = some p → ¬ Inherits (leftOver p receipt)
      ∧ (located p receipt = .null ∨ QuotesDoc (located p receipt)
        ∧ ∀ e, r.expectedHash = some e → QuotesPy (decode e))

/-! ## Amounts -/

omit [Ucd] in
/-- Up to the first of a character, texts are read apart. -/
theorem append_sep_iff {c : CodePoint} {x y a b : PyStr} (hx : c ∉ x) (hy : c ∉ y) :
    x ++ c :: a = y ++ c :: b ↔ x = y ∧ a = b := by
  induction x generalizing y with
  | nil =>
    cases y with
    | nil => simp
    | cons d y =>
      refine iff_of_false (fun h => ?_) (by simp)
      exact hy ((List.cons.inj h).1 ▸ List.mem_cons_self)
  | cons d x ih =>
    rw [List.mem_cons, not_or] at hx
    cases y with
    | nil =>
      refine iff_of_false (fun h => ?_) (by simp)
      exact hx.1 (List.cons.inj h).1.symm
    | cons e y =>
      rw [List.mem_cons, not_or] at hy
      rw [List.cons_append, List.cons_append, List.cons.injEq, List.cons.injEq, ih hx.2 hy.2,
        and_assoc]

omit [Ucd] in
/-- Two numbers before a space. -/
theorem number_space_iff (z : ℤ) (x : Double) (A B : PyStr) :
    decimal z ++ chr ' ' :: A = decode (Ts.numberToString x) ++ chr ' ' :: B
      ↔ decimal z = decode (Ts.numberToString x) ∧ A = B := by
  have hnumeral {cs : List Char} (h : ∀ c ∈ cs, Numeral c) : chr ' ' ∉ (ofChars cs : PyStr) := by
    intro hmem
    obtain ⟨c, hc, heq⟩ := List.mem_map.mp hmem
    have hlt := (h c hc).lt
    have hspace : c = ' ' := chr_inj (by omega) (by decide) heq
    have hnum := h c hc
    rw [hspace] at hnum
    exact absurd hnum (by unfold Numeral; decide)
  refine append_sep_iff (hnumeral fun c hc => ?_) ?_
  · rcases mem_decimalChars hc with h | rfl
    · exact Or.inl h
    · exact Or.inr (by decide)
  · obtain ⟨cs, hcs, hnum⟩ := ts_number_numeral x
    rw [hcs, decode_ofChars fun c hc => (hnum c hc).lt]
    exact hnumeral hnum

omit [Ucd] in
/-- A literal with a point or an exponent is a `float`. -/
theorem py_asInt_dec (neg : Bool) (m : ℕ) (e : ℤ) :
    Py.asInt (Py.ofDoc (.num (.dec neg m e))) = none := by
  change Py.asInt (.num (Py.loadNumber (.dec neg m e))) = none
  unfold Py.loadNumber
  dsimp only
  split <;> rfl

theorem meet_requireInt {k : String} (hk : Ascii k) (hown : Ts.OwnName (lit k)) {ps : Members}
    {pid : PyStr} {tid : Ts.JsVal} :
    Meet (fun z x => intMember k ps = some z ∧ x = Double.ofInt z)
      (Py.requireInt (Py.ofMembers ps) (lit k) pid)
      (Ts.requireInt (.obj (Ts.ofMembers ps)) (lit k) tid) := by
  refine (meet_of_alike (alike_requireParam hk hown)).bind fun v w hvw => ?_
  obtain ⟨d, hget, rfl, rfl⟩ := hvw
  have hmember : intMember k ps = docInt d := by
    rw [intMember, hget]
    rfl
  rw [hmember]
  cases d with
  | num l =>
    cases l with
    | int z =>
      intro a b ha hb
      obtain rfl : z = a := Except.ok.inj ha
      have hread : Ts.asInt (.json (Ts.ofDoc (.num (.int z))))
          = if (Double.ofInt z).isInteger then some (Double.ofInt z) else none := rfl
      rw [hread] at hb
      by_cases hint : (Double.ofInt z).isInteger = true
      · rw [if_pos hint] at hb
        exact ⟨rfl, (Except.ok.inj hb).symm⟩
      · rw [if_neg hint] at hb
        exact (meet_throws (R := fun (_ : ℤ) (_ : Double) => False) (.ok z) _ _ z b rfl hb).elim
    | dec neg m e =>
      rw [py_asInt_dec]
      exact meet_raises _ _
  | null | bool | str | arr | obj => exact meet_raises _ _

theorem meet_amount (hreceipt : ∀ m ∈ receipt, SafeDoc m.2) {pid : PyStr} {tid : Ts.JsVal} :
    Meet (fun z x => intMember "amount_charged" receipt = some z ∧ z.natAbs ≤ 2 ^ 53 - 1
        ∧ x = .fin (z : ℚ))
      (Py.amount (Py.ofMembers receipt) pid) (Ts.receiptAmount (Ts.ofMembers receipt) tid) := by
  have hk : Ascii "amount_charged" := by decide
  unfold Py.amount Ts.receiptAmount Py.getD intMember
  rw [py_get? hk, ts_getProp (by decide)]
  cases hget : get? (lit "amount_charged") receipt with
  | none => exact meet_raises _ _
  | some d =>
    have hd : SafeDoc d := hreceipt _ (mem_of_get? hget)
    rw [Option.map_some, Option.getD_some, py_asInt hd, ts_asInt hd, Option.bind_some]
    cases hz : docInt d with
    | none => exact meet_raises _ _
    | some z => exact meet_ok ⟨rfl, docInt_safe hd hz, rfl⟩

/-- The reasons of a rule that compares the amount with its threshold. -/
theorem told_amount {p : ℤ → ℤ → Prop} [∀ t a, Decidable (p t a)] {q : Double → Double → Prop}
    [∀ t a, Decidable (q t a)] {before between : String} (hbefore : Ascii before)
    (hbetween : Ascii between) (hne : between ≠ "") (hreceipt : ∀ m ∈ receipt, SafeDoc m.2) :
    Told (∀ z, intMember "threshold" r.parameters = some z → IntPrints z)
      (do
        let threshold ← Py.requireInt r.toPy.parameters (lit "threshold") r.toPy.id
        let amount ← Py.amount (Py.ofMembers receipt) r.toPy.id
        if p threshold amount then
          .ok (Py.fires (lit before ++ (decimal amount ++ (lit between ++ decimal threshold))))
        else .ok Py.notFired)
      (do
        let threshold ← Ts.requireInt r.toTs.parameters (lit "threshold") r.toTs.id
        let amount ← Ts.receiptAmount (Ts.ofMembers receipt) r.toTs.id
        if q threshold amount then
          .ok (Ts.fires (lit before ++ (Ts.numberToString amount
            ++ (lit between ++ Ts.numberToString threshold))))
        else .ok Ts.notFired) := by
  refine (meet_requireInt (by decide) (by decide)).bind fun t t' ht => ?_
  refine (meet_amount hreceipt).bind fun a a' ha => ?_
  obtain ⟨ht, rfl⟩ := ht
  obtain ⟨-, hsafe, rfl⟩ := ha
  rw [ht]
  refine Told.ite fun _ _ => ?_
  rw [Ts.numberToString_intCast hsafe, decode_lit_append hbefore,
    decode_append_lit hbetween hne, decode_decimal]
  simp only [List.append_cancel_left_eq, Option.some.injEq, forall_eq']
  rfl

theorem told_maxAmount (hreceipt : ∀ m ∈ receipt, SafeDoc m.2) :
    Told (∀ z, intMember "threshold" r.parameters = some z → IntPrints z)
      (Py.evalMaxAmount r.toPy (Py.ofMembers receipt))
      (Ts.evalMaxAmount r.toTs (Ts.ofMembers receipt)) :=
  told_amount (by decide) (by decide) (by decide) hreceipt

theorem told_escalationThreshold (hreceipt : ∀ m ∈ receipt, SafeDoc m.2) :
    Told (∀ z, intMember "threshold" r.parameters = some z → IntPrints z)
      (Py.evalEscalationThreshold r.toPy (Py.ofMembers receipt))
      (Ts.evalEscalationThreshold r.toTs (Ts.ofMembers receipt)) :=
  told_amount (by decide) (by decide) (by decide) hreceipt

/-! ## A daily limit -/

omit [Ucd] in
/-- An optional parameter that Python accepts, in TypeScript. -/
theorem ts_optional {k : String} (hown : Ts.OwnName (lit k)) {dflt : JsStr}
    (hnull : r.param k (.str dflt) ≠ .null) :
    Ts.orElse (Ts.getProp (Ts.ofMembers r.parameters) (lit k)) (.str dflt)
      = .json (Ts.ofDoc (r.param k (.str dflt))) := by
  refine ts_orElse hown (fun hget => hnull ?_) (.str dflt)
  rw [RuleDoc.param, hget]
  rfl

omit [Ucd] in
/-- One of a few texts is no `null`. -/
theorem ne_null_of_oneOf {α : Type} {text : α → String} {valid : List α} {d : Doc} {a : α}
    (h : Py.oneOf text valid (Py.ofDoc d) = some a) : d ≠ .null := by
  rintro rfl
  have hnull := List.find?_some h
  rw [Py.pyEq_str_right] at hnull
  exact absurd (of_decide_eq_true hnull) nofun

omit [Ucd] in
/-- The aggregate of a rule, where both take it for an integer. -/
theorem meet_prior {z : ℤ} {x : Double}
    (hpy : Py.asInt ((get? r.toPy.id (Py.ofMembers aggregates)).getD (.num (.int 0))) = some z)
    (hts : Ts.asInt (Ts.orElse (Ts.getProp (Ts.ofMembers aggregates) r.id) (.num (.fin 0)))
      = some x) : z = priorOf aggregates r ∧ x = Double.ofInt z := by
  have hid : r.toPy.id = decode r.id := rfl
  unfold priorOf
  rw [hid, Py.get?_ofMembers] at hpy
  unfold Ts.getProp at hts
  rw [Ts.get?_ofMembers] at hts
  cases hget : get? r.id aggregates with
  | none =>
    rw [hget] at hpy hts
    obtain rfl : 0 = z := Option.some.inj hpy
    refine ⟨rfl, ?_⟩
    -- nothing supplied: zero, unless the name is inherited
    simp only [Option.map_none] at hts
    unfold Ts.inherited at hts
    split_ifs at hts
    · cases hts
    · split at hts
      · cases hts
      · have hzero : Ts.asInt (.json (.num (.fin 0))) = some x := hts
        have hint : (Double.fin 0).isInteger = true := by decide
        change (if (Double.fin 0).isInteger then some (Double.fin 0) else none) = some x at hzero
        rw [if_pos hint] at hzero
        rw [← Option.some.inj hzero]
        decide +kernel
  | some d =>
    rw [hget] at hpy hts
    cases d with
    | num l =>
      cases l with
      | int p =>
        obtain rfl : p = z := Option.some.inj hpy
        refine ⟨rfl, ?_⟩
        change (if (Double.ofInt p).isInteger then some (Double.ofInt p) else none) = some x at hts
        split_ifs at hts
        exact (Option.some.inj hts).symm
      | dec neg m e =>
        rw [Option.map_some, Option.getD_some, py_asInt_dec] at hpy
        cases hpy
    | null | bool | str | arr | obj => cases hpy

theorem told_dailyLimit (hreceipt : ∀ m ∈ receipt, SafeDoc m.2) :
    Told ((∀ z, intMember "amount_charged" receipt = some z → SumPrints (priorOf aggregates r) z)
        ∧ ∀ z, intMember "threshold" r.parameters = some z → IntPrints z)
      (Py.evalDailyLimit r.toPy (Py.ofMembers receipt) (Py.ofMembers aggregates))
      (Ts.evalDailyLimit r.toTs (Ts.ofMembers receipt) (Ts.ofMembers aggregates)) := by
  refine (meet_requireInt (by decide) (by decide)).bind fun t t' ht => ?_
  obtain ⟨ht, rfl⟩ := ht
  rw [ts_readParam, ok_bind]
  dsimp only
  rw [py_param (by decide) (by decide)]
  cases hwindow : Py.oneOf id Py.validDailyWindows
    (Py.ofDoc (r.param "window" (.str (lit "utc_day")))) with
  | none => exact meet_raises _ _
  | some w =>
    have hsame := hwindow
    rw [oneOf_alike (by decide)] at hsame
    have htext : r.param "window" (.str (lit "utc_day")) = .str (lit w) :=
      docStr_of_oneOf (by decide) hwindow
    have hvalid : Py.validDailyWindows = Ts.validDailyWindows := rfl
    rw [raiseWhen_neg (by simp), ok_bind, ts_optional (by decide) (ne_null_of_oneOf hwindow),
      ← hvalid, hsame]
    have hkey : Ts.toStr r.toTs.id = .ok r.id := rfl
    dsimp only
    rw [hkey, ok_bind]
    cases hpy : Py.asInt ((get? r.toPy.id (Py.ofMembers aggregates)).getD (.num (.int 0))) with
    | none => exact meet_raises _ _
    | some prior =>
      cases hts : Ts.asInt (Ts.orElse (Ts.getProp (Ts.ofMembers aggregates) r.id) (.num (.fin 0))) with
      | none => exact meet_throws _ _ _
      | some prior' =>
        obtain ⟨rfl, rfl⟩ := meet_prior hpy hts
        refine (meet_amount hreceipt).bind fun a a' ha => ?_
        obtain ⟨ha, -, rfl⟩ := ha
        rw [ht, ha]
        refine Told.ite fun _ _ => ?_
        rw [htext, decode_lit_append (by decide), List.append_cancel_left_eq,
          decode_append_lit (by decide) (by decide)]
        refine (number_space_iff _ _ _ _).trans (and_congr ?_ ?_)
        · simp only [Option.some.injEq, forall_eq']
          rfl
        · change lit "in window " ++ (decode (lit w) ++ (lit " exceeds threshold " ++ decimal t))
            = lit "in window " ++ decode (lit w ++ (lit " exceeds threshold "
              ++ Ts.numberToString (Double.ofInt t))) ↔ _
          rw [List.append_cancel_left_eq, decode_append_lit (by decide) (by decide),
            List.append_cancel_left_eq, List.append_cancel_left_eq]
          simp only [Option.some.injEq, forall_eq']
          rfl

end

end Parity

end OpenTerms
