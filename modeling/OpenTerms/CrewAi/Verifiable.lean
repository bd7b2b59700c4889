import OpenTerms.Commitments
import OpenTerms.Py.Posted

/-!
# When a wrapped call can be verified

What the wrapper posts before a call holds the arguments as `inspect`
binds them. Binding makes one tuple, of what `*args` collects, and
nothing else that JSON has not (`bindPartial_recorded`). So the receipt
verifies exactly where the collected arguments hold nothing that the
canonicalizer would refuse or strip in a list (`posted_verifies_iff`).
-/

namespace OpenTerms

namespace CrewAi

open Json Py Py.Ingest

/-! ## What binding records -/

/-- What Python promises of a signature: the names are distinct, and
identifiers have no surrogates. -/
structure Legal (sig : Signature) : Prop where
  distinct : (sig.map Param.name).Nodup
  decoded : ∀ param ∈ sig, Decoded param.name

/-- A value that JSON text can denote: no dict has a name twice, and no
string leaves a pair of surrogates unjoined. -/
def JsonNative (v : PyVal) : Prop := UniqueNames v ∧ Every (fun _ => True) Decoded Decoded v

/-- What `*args` collects of the positional arguments. -/
def collected : Signature → List PyVal → List PyVal
  | param :: params, arg :: args =>
    if param.kind = .varPositional then arg :: args else collected params args
  | _, _ => []

/-- The tuple in the record of a call, or nothing. -/
def starArgs (func : Tool) (args : List PyVal) (kwargs : PyDict) : List PyVal :=
  match func.signature with
  | none => []
  | some sig => if (bindPartial sig args kwargs).isSome then collected sig args else []

/-- A value of the record: an argument, the tuple of those collected, or the
dict of those that are left. -/
inductive Recorded (star args : List PyVal) (kwargs : PyDict) : PyObj → Prop
  | arg (v : PyVal) (h : v ∈ args) : Recorded star args kwargs (ofVal v)
  | star : Recorded star args kwargs (.num (.tuple star))
  | kwarg (m : PyStr × PyVal) (h : m ∈ kwargs) : Recorded star args kwargs (ofVal m.2)
  | kwargs (ms : PyDict) (h : ms.Sublist kwargs) : Recorded star args kwargs (ofVal (.obj ms))

theorem collected_subset {sig : Signature} {args : List PyVal} :
    ∀ v ∈ collected sig args, v ∈ args := by
  induction sig generalizing args with
  | nil => cases args <;> exact nofun
  | cons param params ih =>
    cases args with
    | nil => exact nofun
    | cons arg args =>
      intro v hv
      rw [collected] at hv
      split_ifs at hv
      · exact hv
      · exact List.mem_cons_of_mem _ (ih v hv)

section

variable {star args : List PyVal} {kwargs : PyDict} {v : PyObj}

theorem Recorded.mono {args' : List PyVal} {kwargs' : PyDict}
    (h : Recorded star args kwargs v) (hargs : ∀ v ∈ args, v ∈ args')
    (hkwargs : kwargs.Sublist kwargs') : Recorded star args' kwargs' v := by
  cases h with
  | arg v h => exact .arg v (hargs v h)
  | star => exact .star
  | kwarg m h => exact .kwarg m (hkwargs.subset h)
  | kwargs ms h => exact .kwargs ms (h.trans hkwargs)

/-- A fresh name is bound at the end. -/
theorem set_fresh {arguments : ObjDict} {k : PyStr} {ks : List PyStr}
    (hd : (names arguments ++ k :: ks).Nodup) (v : PyObj) :
    set k v arguments = arguments ++ [(k, v)] := by
  refine set_of_notMem fun hmem => ?_
  exact (List.nodup_append.mp hd).2.2 k hmem k List.mem_cons_self rfl

/-- The members positional binding adds. -/
structure Bound (sig : Signature) (args : List PyVal) (kwargs : PyDict) (new : ObjDict) : Prop where
  recorded : ∀ m ∈ new, m.1 ∈ sig.map Param.name ∧ Recorded (collected sig args) args kwargs m.2
  star : collected sig args ≠ [] → ∃ m ∈ new, m.2 = .num (.tuple (collected sig args))

/-- One argument more. -/
theorem Bound.cons {param : Param} {params : Signature} {arg : PyVal} {new : ObjDict}
    (hkind : param.kind ≠ .varPositional) (h : Bound params args kwargs new) :
    Bound (param :: params) (arg :: args) kwargs ((param.name, ofVal arg) :: new) := by
  have hcollected : collected (param :: params) (arg :: args) = collected params args := by
    rw [collected, if_neg hkind]
  constructor
  · rw [hcollected]
    refine List.forall_mem_cons.mpr ⟨⟨List.mem_cons_self, .arg arg List.mem_cons_self⟩, ?_⟩
    intro m hm
    obtain ⟨hname, hrec⟩ := h.recorded m hm
    exact ⟨List.mem_cons_of_mem _ hname,
      hrec.mono (fun v hv => List.mem_cons_of_mem _ hv) (List.Sublist.refl _)⟩
  · rw [hcollected]
    intro hne
    obtain ⟨m, hm, heq⟩ := h.star hne
    exact ⟨m, List.mem_cons_of_mem _ hm, heq⟩

/-- **Binding the positional arguments** adds them under fresh names, those
collected as a tuple. Induction on the parameters. -/
theorem bindPositional_spec {sig rest : Signature} {arguments out : ObjDict}
    (h : bindPositional kwargs sig args arguments = some (out, rest))
    (hd : (names arguments ++ sig.map Param.name).Nodup) :
    ∃ new, out = arguments ++ new ∧ (names out ++ rest.map Param.name).Nodup
      ∧ Bound sig args kwargs new ∧ ∀ param ∈ rest, param ∈ sig := by
  induction sig generalizing args arguments with
  | nil =>
    cases args with
    | nil =>
      cases h
      exact ⟨[], (List.append_nil _).symm, hd, ⟨(by simp), fun hne => absurd rfl hne⟩, (by simp)⟩
    | cons arg args => cases h
  | cons param params ih =>
    rw [List.map_cons] at hd
    cases args with
    | nil =>
      -- nothing is bound; a parameter for the rest is passed over
      have hkept {rest' : Signature} (hrest : rest'.Sublist (param :: params))
          (h : some (arguments, rest') = some (out, rest)) :
          ∃ new, out = arguments ++ new ∧ (names out ++ rest.map Param.name).Nodup
            ∧ Bound (param :: params) [] kwargs new ∧ ∀ param' ∈ rest, param' ∈ param :: params := by
        cases h
        refine ⟨[], (List.append_nil _).symm, ?_, ⟨(by simp), fun hne => absurd rfl hne⟩, hrest.subset⟩
        exact hd.sublist ((hrest.map Param.name).append_left _)
      rw [bindPositional] at h
      cases hkind : param.kind with
      | varPositional =>
        rw [hkind] at h
        exact hkept (List.sublist_cons_self _ _) h
      | positionalOnly =>
        rw [hkind] at h
        dsimp only at h
        split_ifs at h
        exact hkept (List.Sublist.refl _) h
      | positionalOrKeyword | keywordOnly | varKeyword =>
        rw [hkind] at h
        exact hkept (List.Sublist.refl _) h
    | cons arg args =>
      rw [bindPositional] at h
      -- an argument is bound to its parameter, and the rest as before
      have hbound (hkind : param.kind ≠ .varPositional)
          (h : bindPositional kwargs params args (set param.name (ofVal arg) arguments)
            = some (out, rest)) :
          ∃ new, out = arguments ++ new ∧ (names out ++ rest.map Param.name).Nodup
            ∧ Bound (param :: params) (arg :: args) kwargs new
            ∧ ∀ param' ∈ rest, param' ∈ param :: params := by
        rw [set_fresh hd] at h
        have hd' : (names (arguments ++ [(param.name, ofVal arg)])
            ++ params.map Param.name).Nodup := by
          rw [names, List.map_append, List.append_assoc]
          exact hd
        obtain ⟨new, rfl, hnodup, hnew, hrest⟩ := ih h hd'
        exact ⟨(param.name, ofVal arg) :: new, by rw [List.append_assoc]; rfl, hnodup,
          hnew.cons hkind, fun param' hp => List.mem_cons_of_mem _ (hrest param' hp)⟩
      cases hkind : param.kind with
      | varKeyword | keywordOnly =>
        rw [hkind] at h
        cases h
      | varPositional =>
        have hcollected : collected (param :: params) (arg :: args) = arg :: args := by
          rw [collected, if_pos hkind]
        rw [hkind] at h
        cases h
        rw [set_fresh hd]
        refine ⟨_, rfl, ?_, ⟨?_, ?_⟩, fun param' hp => List.mem_cons_of_mem _ hp⟩
        · rw [names, List.map_append, List.append_assoc]
          exact hd
        · rw [hcollected]
          exact List.forall_mem_singleton.mpr ⟨List.mem_cons_self, .star⟩
        · rw [hcollected]
          exact fun _ => ⟨_, List.mem_cons_self, rfl⟩
      | positionalOnly =>
        rw [hkind] at h
        exact hbound (by rw [hkind]; simp) h
      | positionalOrKeyword =>
        rw [hkind] at h
        dsimp only at h
        split_ifs at h
        exact hbound (by rw [hkind]; simp) h

/-- **Binding the keyword arguments** adds the ones that have a parameter
under its name, and the others as a dict. Induction on the parameters. -/
theorem bindKeyword_spec {sig : Signature} {arguments out : ObjDict} {kwargsParam : Option PyStr}
    (h : bindKeyword sig kwargs arguments kwargsParam = some out)
    (hd : (names arguments ++ (kwargsParam.toList ++ sig.map Param.name)).Nodup) :
    ∃ new, out = arguments ++ new ∧ (names out).Nodup
      ∧ ∀ m ∈ new, m.1 ∈ kwargsParam.toList ++ sig.map Param.name
        ∧ Recorded star args kwargs m.2 := by
  induction sig generalizing kwargs arguments kwargsParam with
  | nil =>
    rw [List.map_nil, List.append_nil] at hd ⊢
    cases kwargs with
    | nil =>
      cases h
      exact ⟨[], (List.append_nil _).symm, (List.nodup_append.mp hd).1, (by simp)⟩
    | cons m kwargs =>
      cases kwargsParam with
      | none => cases h
      | some name =>
        cases h
        rw [set_fresh hd]
        refine ⟨_, rfl, ?_, List.forall_mem_singleton.mpr ⟨List.mem_cons_self,
          .kwargs _ (List.Sublist.refl _)⟩⟩
        rw [names, List.map_append]
        exact hd
  | cons param params ih =>
    rw [List.map_cons] at hd ⊢
    -- a parameter that takes nothing
    have hskip (h : bindKeyword params kwargs arguments kwargsParam = some out) :
        ∃ new, out = arguments ++ new ∧ (names out).Nodup
          ∧ ∀ m ∈ new, m.1 ∈ kwargsParam.toList ++ param.name :: params.map Param.name
            ∧ Recorded star args kwargs m.2 := by
      obtain ⟨new, rfl, hnodup, hnew⟩ := ih h
        (hd.sublist (((List.sublist_cons_self _ _).append_left _).append_left _))
      refine ⟨new, rfl, hnodup, fun m hm => ⟨?_, (hnew m hm).2⟩⟩
      rcases List.mem_append.mp (hnew m hm).1 with hname | hname
      · exact List.mem_append_left _ hname
      · exact List.mem_append_right _ (List.mem_cons_of_mem _ hname)
    -- a parameter that takes its keyword
    have htake {argVal : PyVal} (hget : get? param.name kwargs = some argVal)
        (h : bindKeyword params (kwargs.filter fun m => m.1 ≠ param.name)
          (set param.name (ofVal argVal) arguments) kwargsParam = some out) :
        ∃ new, out = arguments ++ new ∧ (names out).Nodup
          ∧ ∀ m ∈ new, m.1 ∈ kwargsParam.toList ++ param.name :: params.map Param.name
            ∧ Recorded star args kwargs m.2 := by
      have hperm : (names arguments ++ param.name :: (kwargsParam.toList
          ++ params.map Param.name)).Nodup :=
        ((List.perm_middle.append_left _).nodup_iff).mp hd
      rw [set_fresh hperm] at h
      have hd' : (names (arguments ++ [(param.name, ofVal argVal)])
          ++ (kwargsParam.toList ++ params.map Param.name)).Nodup := by
        rw [names, List.map_append, List.append_assoc]
        exact hperm
      obtain ⟨new, rfl, hnodup, hnew⟩ := ih h hd'
      refine ⟨(param.name, ofVal argVal) :: new, by rw [List.append_assoc]; rfl, hnodup, ?_⟩
      refine List.forall_mem_cons.mpr
        ⟨⟨List.mem_append_right _ List.mem_cons_self, .kwarg _ (mem_of_get? hget)⟩, fun m hm => ?_⟩
      obtain ⟨hname, hrec⟩ := hnew m hm
      refine ⟨?_, hrec.mono (fun _ h => h) List.filter_sublist⟩
      rcases List.mem_append.mp hname with hname | hname
      · exact List.mem_append_left _ hname
      · exact List.mem_append_right _ (List.mem_cons_of_mem _ hname)
    rw [bindKeyword] at h
    cases hkind : param.kind with
    | varKeyword =>
      rw [hkind] at h
      have hd' : (names arguments ++ ((some param.name).toList ++ params.map Param.name)).Nodup :=
        hd.sublist ((List.sublist_append_right _ _).append_left _)
      obtain ⟨new, rfl, hnodup, hnew⟩ := ih h hd'
      refine ⟨new, rfl, hnodup, fun m hm => ⟨?_, (hnew m hm).2⟩⟩
      exact List.mem_append_right _ (hnew m hm).1
    | varPositional =>
      rw [hkind] at h
      exact hskip h
    | positionalOnly =>
      rw [hkind] at h
      dsimp only at h
      split_ifs at h
      exact hskip h
    | positionalOrKeyword | keywordOnly =>
      rw [hkind] at h
      cases hget : get? param.name kwargs with
      | none =>
        rw [hget] at h
        exact hskip h
      | some argVal =>
        rw [hget] at h
        exact htake hget h

/-- **What binding records.** -/
theorem bindPartial_spec {sig : Signature} {out : ObjDict} (hsig : Legal sig)
    (h : bindPartial sig args kwargs = some out) :
    (names out).Nodup
      ∧ (∀ m ∈ out, m.1 ∈ sig.map Param.name ∧ Recorded (collected sig args) args kwargs m.2)
      ∧ (collected sig args ≠ [] → ∃ m ∈ out, m.2 = .num (.tuple (collected sig args))) := by
  obtain ⟨⟨arguments, rest⟩, hpositional, hkeyword⟩ := Option.bind_eq_some_iff.mp h
  obtain ⟨new, rfl, hd, hnew, hrest⟩ := bindPositional_spec hpositional hsig.distinct
  obtain ⟨new', rfl, hnodup, hnew'⟩ :=
    @bindKeyword_spec (collected sig args) args kwargs _ _ _ _ hkeyword hd
  refine ⟨hnodup, fun m hm => ?_, fun hne => ?_⟩
  · rcases List.mem_append.mp hm with hm | hm
    · exact hnew.recorded m hm
    · obtain ⟨hname, hrec⟩ := hnew' m hm
      refine ⟨?_, hrec⟩
      obtain ⟨param, hp, heq⟩ := List.mem_map.mp hname
      exact List.mem_map.mpr ⟨param, hrest param hp, heq⟩
  · obtain ⟨m, hm, heq⟩ := hnew.star hne
    exact ⟨m, List.mem_append_left _ hm, heq⟩

/-- What the placeholders record. -/
theorem placeholders_spec (hkwargs : ∀ k ∈ names kwargs, Decoded k) :
    (names (placeholders args kwargs)).Nodup
      ∧ ∀ m ∈ placeholders args kwargs, Decoded m.1 ∧ Recorded [] args kwargs m.2 := by
  have hname (i : ℕ) : Decoded (lit "arg_" ++ decimal i : PyStr) := by
    have hascii : ∀ c ∈ "arg_".toList ++ decimalChars (i : ℤ), c.toNat < 0x80 := by
      intro c hc
      rcases List.mem_append.mp hc with hc | hc
      · exact (by simp : ∀ c ∈ "arg_".toList, c.toNat < 0x80) c hc
      · exact decimalChars_lt hc
    have := decoded_ofChars hascii
    rwa [ofChars_append] at this
  have hbase : (names (args.zipIdx.map fun p =>
      ((lit "arg_" ++ decimal p.2 : PyStr), ofVal p.1))).Nodup := by
    have hinj : Function.Injective fun i : ℕ => (lit "arg_" ++ decimal i : PyStr) :=
      fun i j h => Int.ofNat_inj.mp (Doc.decimal_injective (List.append_cancel_left h))
    have hmap : names (args.zipIdx.map fun p => ((lit "arg_" ++ decimal p.2 : PyStr), ofVal p.1))
        = (args.zipIdx.map Prod.snd).map fun i : ℕ => lit "arg_" ++ decimal i := by
      rw [names, List.map_map, List.map_map]
      rfl
    rw [hmap, List.zipIdx_map_snd]
    exact (List.nodup_range' _).map hinj
  unfold placeholders
  have hfold (ms : PyDict) (hms : ∀ m ∈ ms, m ∈ kwargs) (out : ObjDict) (hd : (names out).Nodup)
      (hout : ∀ m ∈ out, Decoded m.1 ∧ Recorded [] args kwargs m.2) :
      (names (ms.foldl (fun out m => set m.1 (ofVal m.2) out) out)).Nodup
        ∧ ∀ m ∈ ms.foldl (fun out m => set m.1 (ofVal m.2) out) out,
          Decoded m.1 ∧ Recorded [] args kwargs m.2 := by
    induction ms generalizing out with
    | nil => exact ⟨hd, hout⟩
    | cons m ms ih =>
      rw [List.forall_mem_cons] at hms
      refine ih hms.2 _ (nodup_names_set hd) fun m' hm' => ?_
      rcases mem_of_mem_set hm' with rfl | hm'
      · exact ⟨hkwargs _ (List.mem_map_of_mem hms.1), .kwarg m hms.1⟩
      · exact hout m' hm'
  refine hfold kwargs (fun _ h => h) _ hbase fun m hm => ?_
  obtain ⟨⟨v, i⟩, hv, rfl⟩ := List.mem_map.mp hm
  exact ⟨hname i, .arg v (List.fst_mem_of_mem_zipIdx hv)⟩

/-- **What the record of a call holds**: one tuple at most, and that is what
`*args` collects. -/
theorem buildArgs_spec {func : Tool} (hsig : ∀ sig ∈ func.signature, Legal sig)
    (hkwargs : ∀ k ∈ names kwargs, Decoded k) :
    (names (buildArgs func args kwargs)).Nodup
      ∧ (∀ m ∈ buildArgs func args kwargs,
        Decoded m.1 ∧ Recorded (starArgs func args kwargs) args kwargs m.2)
      ∧ (starArgs func args kwargs ≠ [] →
        ∃ m ∈ buildArgs func args kwargs, m.2 = .num (.tuple (starArgs func args kwargs))) := by
  obtain ⟨hnodup, hmembers⟩ := @placeholders_spec args kwargs hkwargs
  unfold buildArgs starArgs
  cases hfunc : func.signature with
  | none => exact ⟨hnodup, hmembers, fun hne => absurd rfl hne⟩
  | some sig =>
    have hlegal := hsig sig hfunc
    simp only [Option.bind_some]
    cases hbind : bindPartial sig args kwargs with
    | none => exact ⟨hnodup, hmembers, fun hne => absurd rfl hne⟩
    | some out =>
      obtain ⟨hd, hout, hstar⟩ := bindPartial_spec hlegal hbind
      refine ⟨hd, fun m hm => ⟨?_, (hout m hm).2⟩, hstar⟩
      obtain ⟨param, hparam, heq⟩ := List.mem_map.mp (hout m hm).1
      exact heq ▸ hlegal.decoded param hparam

/-! ## What is signed of it -/

theorem starArgs_subset {func : Tool} : ∀ v ∈ starArgs func args kwargs, v ∈ args := by
  unfold starArgs
  split
  · exact nofun
  · split_ifs
    · exact collected_subset
    · exact nofun

/-- A JSON-native value as it is recorded. -/
theorem ofVal_spec {v : PyVal} (hv : JsonNative v) :
    UniqueNames (ofVal v) ∧ Every Atom.Unique (fun _ => True) Decoded (ofVal v) :=
  ⟨hv.1.map _ Function.injective_id, every_map.mpr (Every.imp (fun _ _ => trivial)
    (fun _ _ => trivial) (fun _ h => h) hv.2)⟩

/-- What is recorded of a JSON-native call has no name twice, and names that
JSON can carry. -/
theorem Recorded.unique (h : Recorded star args kwargs v) (hstar : ∀ v ∈ star, v ∈ args)
    (hargs : ∀ v ∈ args, JsonNative v) (hkwargs : JsonNative (.obj kwargs)) :
    UniqueNames v ∧ Every Atom.Unique (fun _ => True) Decoded v := by
  obtain ⟨hnames, hdecoded⟩ := hkwargs
  rw [uniqueNames_obj] at hnames
  rw [every_obj] at hdecoded
  cases h with
  | arg v h => exact ofVal_spec (hargs v h)
  | star => exact ⟨trivial, uniqueNames_arr.mpr fun v hv => (hargs v (hstar v hv)).1⟩
  | kwarg m h => exact ofVal_spec ⟨hnames.2 m h, (hdecoded m h).2⟩
  | kwargs ms h =>
    refine ofVal_spec ⟨uniqueNames_obj.mpr ⟨hnames.1.sublist (h.map Prod.fst), fun m hm => ?_⟩,
      every_obj.mpr fun m hm => hdecoded m (h.subset hm)⟩
    exact hnames.2 m (h.subset hm)

theorem plain_ofVal (v : PyVal) : Plain (ofVal v) :=
  every_map.mpr (every_of_forall (fun _ => trivial) (fun _ => trivial) (fun _ => trivial) v)

/-- **The record is plain** where the collected arguments are. -/
theorem plain_buildArgs_iff {func : Tool} (hsig : ∀ sig ∈ func.signature, Legal sig)
    (hkwargs : ∀ k ∈ names kwargs, Decoded k) :
    (∀ m ∈ buildArgs func args kwargs, Plain m.2)
      ↔ ∀ v ∈ starArgs func args kwargs, Validated v ∧ v.stripNulls = v := by
  obtain ⟨-, hmembers, hstar⟩ := @buildArgs_spec args kwargs func hsig hkwargs
  constructor
  · intro h v hv
    obtain ⟨m, hm, heq⟩ := hstar (List.ne_nil_of_mem hv)
    have hplain := h m hm
    rw [heq] at hplain
    exact hplain v hv
  · intro h m hm
    have hrec := (hmembers m hm).2
    generalize m.2 = v at hrec ⊢
    cases hrec with
    | arg v h' => exact plain_ofVal v
    | star => exact h
    | kwarg m h' => exact plain_ofVal m.2
    | kwargs ms h' => exact plain_ofVal (.obj ms)

/-! ## The receipt -/

section

variable {config : OpenTermsToolConfig} {func : Tool} {toolName : Option PyStr}
variable {agent ts rid : PyStr}

/-- The names of a receipt and of its context. -/
def receiptNames : List PyStr :=
  signedRequired ++ [lit "action_context", lit "tool_id", lit "args"]

/-- The receipt of a call. -/
abbrev callReceipt (config : OpenTermsToolConfig) (func : Tool) (toolName : Option PyStr)
    (args : List PyVal) (kwargs : PyDict) (agent ts rid : PyStr) : ObjDict :=
  config.client.receipt config.emission (some (actionContext func toolName args kwargs)) agent ts rid

/-- What holds of the receipt of a call is what holds of the record. -/
theorem every_receipt_iff {pn : Atom → Prop} {pk : PyStr → Prop} (hnum : ∀ x, pn (.num x))
    (hk : ∀ k ∈ receiptNames, pk k) :
    Every pn (fun _ => True) pk (.obj (callReceipt config func toolName args kwargs agent ts rid))
      ↔ ∀ m ∈ buildArgs func args kwargs, pk m.1 ∧ Every pn (fun _ => True) pk m.2 := by
  have htool : pk (lit "tool_id") := hk _ (by decide)
  have hargs : pk (lit "args") := hk _ (by decide)
  have hcontext : Every pn (fun _ => True) pk (.obj (actionContext func toolName args kwargs))
      ↔ ∀ m ∈ buildArgs func args kwargs, pk m.1 ∧ Every pn (fun _ => True) pk m.2 := by
    rw [actionContext, every_obj, List.forall_mem_cons, List.forall_mem_singleton, every_obj]
    exact ⟨fun h => h.2.2, fun h => ⟨⟨htool, trivial⟩, hargs, h⟩⟩
  rw [← hcontext, every_obj]
  constructor
  · intro h
    refine (h (lit "action_context", .obj (actionContext func toolName args kwargs)) ?_).2
    rw [callReceipt, receipt_eq (show config.emission.extra = none from rfl)]
    simp
  · intro h m hm
    have hname : m.1 ∈ signedRequired ++ [lit "action_context"] := by
      rw [← names_receipt (show config.emission.extra = none from rfl)]
      exact List.mem_map_of_mem hm
    refine ⟨hk _ ?_, ?_⟩
    · rcases List.mem_append.mp hname with hname | hname
      · exact List.mem_append_left _ hname
      · rw [List.mem_singleton.mp hname]
        exact List.mem_append_right _ List.mem_cons_self
    · rw [callReceipt, receipt_eq (show config.emission.extra = none from rfl)] at hm
      simp only [List.mem_cons, List.not_mem_nil, or_false] at hm
      rcases hm with rfl | rfl | rfl | rfl | rfl | rfl | rfl | rfl | rfl | rfl | rfl
      all_goals first | exact trivial | exact hnum _ | exact h

theorem uniqueNames_receipt (hd : (names (buildArgs func args kwargs)).Nodup)
    (h : ∀ m ∈ buildArgs func args kwargs, UniqueNames m.2) :
    UniqueNames (.obj (callReceipt config func toolName args kwargs agent ts rid)) := by
  have hcontext : UniqueNames (.obj (actionContext func toolName args kwargs)) := by
    rw [actionContext, uniqueNames_obj, List.forall_mem_cons, List.forall_mem_singleton,
      uniqueNames_obj]
    have hpair : ([lit "tool_id", lit "args"] : List PyStr).Nodup := by decide
    exact ⟨hpair, trivial, hd, h⟩
  rw [uniqueNames_obj, names_receipt (show config.emission.extra = none from rfl)]
  refine ⟨by decide, fun m hm => ?_⟩
  rw [callReceipt, receipt_eq (show config.emission.extra = none from rfl)] at hm
  simp only [List.mem_cons, List.not_mem_nil, or_false] at hm
  rcases hm with rfl | rfl | rfl | rfl | rfl | rfl | rfl | rfl | rfl | rfl | rfl
  all_goals first | exact trivial | exact hcontext

end

section

variable [Ucd] {libs : Libs} {config : OpenTermsToolConfig} {func : Tool}
variable {toolName : Option PyStr} {request : Request} {jwks : PyDict}

omit [Ucd] in
/-- A key id that a JWKS has is one JSON can carry. -/
theorem decoded_keyId {keyId : PyStr} {jwk : PyDict} (hjwks : JsonNative (.obj jwks))
    (hfirst : FirstKey jwks keyId jwk) : Decoded keyId := by
  obtain ⟨before, after, hkeys, hkid, -⟩ := hfirst
  have hlist := (every_obj.mp hjwks.2 _ (mem_of_get? hkeys)).2
  have hjwk := every_arr.mp hlist (.obj jwk) (List.mem_append_right _ List.mem_cons_self)
  exact (every_obj.mp hjwk _ (mem_of_get? hkid)).2

/-- **The receipt of a call verifies** exactly where what it collected is
plain, a collision apart. -/
theorem verifies_request_iff (kp : KeyPair libs.crypto) (hsig : ∀ sig ∈ func.signature, Legal sig)
    (hargs : ∀ v ∈ args, JsonNative v) (hkwargs : JsonNative (.obj kwargs))
    (hkey : config.client.privateKey.seed = kp.seed) (hjwks : JsonNative (.obj jwks))
    (hfirst : FirstKey jwks config.client.keyId
      (publicKeyToJwk (libs.crypto.publicKey kp.seed) config.client.keyId))
    (hposted : Posted config.client libs config.emission
      (some (actionContext func toolName args kwargs)) request) :
    Verifies libs.crypto jwks request.body
      ↔ (∀ v ∈ starArgs func args kwargs, Validated v ∧ v.stripNulls = v)
        ∨ ∃ payload, Obj.buildPayload request.signed = .ok payload
          ∧ TextsCollide libs.crypto payload := by
  obtain ⟨agent, ts, rid, hsign⟩ := hposted
  have hbuild : Obj.buildPayload (callReceipt config func toolName args kwargs agent ts rid)
      = .ok (callReceipt config func toolName args kwargs agent ts rid) :=
    buildPayload_receipt rfl _ _ _ _
  unfold IngestClient.sign at hsign
  rw [hbuild, ok_bind] at hsign
  have hdecoded : ∀ k ∈ names kwargs, Decoded k := by
    intro k hk
    obtain ⟨m, hm, rfl⟩ := List.mem_map.mp hk
    exact (every_obj.mp hkwargs.2 m hm).1
  obtain ⟨hnodup, hmembers, -⟩ := @buildArgs_spec args kwargs func hsig hdecoded
  have hunique : ∀ m ∈ buildArgs func args kwargs,
      UniqueNames m.2 ∧ Every Atom.Unique (fun _ => True) Decoded m.2 :=
    fun m hm => (hmembers m hm).2.unique starArgs_subset hargs hkwargs
  have hnames : ∀ k ∈ receiptNames, Decoded k := by decide
  have hreceipt : Every Atom.Unique (fun _ => True) Decoded
      (.obj (callReceipt config func toolName args kwargs agent ts rid)) :=
    (every_receipt_iff (fun _ => trivial) hnames).mpr
      fun m hm => ⟨(hmembers m hm).1, (hunique m hm).2⟩
  have hplain : Plain (.obj (callReceipt config func toolName args kwargs agent ts rid))
      ↔ ∀ v ∈ starArgs func args kwargs, Validated v ∧ v.stripNulls = v := by
    rw [Plain, every_receipt_iff (fun _ => trivial) (fun _ _ => trivial),
      ← plain_buildArgs_iff hsig hdecoded]
    simp only [true_and, Plain]
  have hpayload : Obj.buildPayload request.signed
      = .ok (callReceipt config func toolName args kwargs agent ts rid) :=
    buildPayload_signed hbuild hsign
  rw [Request.body, verifies_posted_iff kp hbuild
    (uniqueNames_receipt hnodup fun m hm => (hunique m hm).1)
    (Every.imp (fun _ h => h) (fun _ h => h) (fun _ _ => trivial) hreceipt)
    (Every.imp (fun _ _ => trivial) (fun _ h => h) (fun _ h => h) hreceipt) hkey
    (decoded_keyId hjwks hfirst) hsign hfirst, hplain]
  refine or_congr_right ⟨fun h => ⟨_, hpayload, h⟩, ?_⟩
  rintro ⟨payload, hp, h⟩
  obtain rfl := Except.ok.inj (hpayload.symm.trans hp)
  exact h

/-- **Every receipt posted before a call verifies** exactly where what
`*args` collects holds no number the canonicalizer refuses, no name outside
the basic plane and no null member: what it would refuse or strip in a list. -/
theorem posted_verifies_iff (libs : Libs) (kp : KeyPair libs.crypto) :
    ∀ (Result : Type) (config : OpenTermsToolConfig) (strOf : Result → Except Exc PyStr)
      (func : Tool) (toolName : Option PyStr) (args : List PyVal) (kwargs : PyDict)
      (request : Request) (jwks : PyDict),
      (∀ sig ∈ func.signature, Legal sig) → (∀ v ∈ args, JsonNative v) →
      JsonNative (.obj kwargs) → JsonNative (.obj jwks) →
      config.client.privateKey.seed = kp.seed →
      FirstKey jwks config.client.keyId
        (publicKeyToJwk (libs.crypto.publicKey kp.seed) config.client.keyId) →
      PostsFirst (wrapper config libs strOf func toolName args kwargs) request →
      (Verifies libs.crypto jwks request.body
        ↔ (∀ v ∈ starArgs func args kwargs, Validated v ∧ v.stripNulls = v)
          ∨ ∃ payload, Obj.buildPayload request.signed = .ok payload
            ∧ TextsCollide libs.crypto payload) := by
  intro Result config strOf func toolName args kwargs request jwks hsig hargs hkwargs hjwks hkey
    hfirst hposts
  exact verifies_request_iff kp hsig hargs hkwargs hkey hjwks hfirst (wrapper_posts hposts)

end

end

instance : DecidablePred JsonNative := fun v =>
  inferInstanceAs (Decidable (UniqueNames v ∧ Every (fun _ => True) Decoded Decoded v))

/-! ## A call that collects -/

namespace Sample

open OpenTerms.Py.Ingest.Sample

/-- A function of any arguments. -/
def gather : Tool where
  name := some (lit "gather")
  signature := some [⟨lit "items", .varPositional⟩]

theorem legal_gather : ∀ sig ∈ gather.signature, Legal sig := by
  rintro sig ⟨⟩
  exact ⟨by decide, by decide⟩

/-- What is signed of the call with `"x"` and `1`. -/
def gatherBytes : Bytes :=
  lit "\x7b\"action_context\":\x7b\"args\":\x7b\"items\":[\"x\",1]\x7d,\"tool_id\":\"gather\"\x7d,\"action_type\":\"tool_call\",\"agent_id\":\"a1\",\"amount_charged\":0,\"created_at\":\"2025-01-01T00:00:00Z\",\"pricing_version\":\"v1\",\"receipt_id\":\"2025-01-01T00:00:00Z\",\"terms_hash\":\"t1\",\"terms_url\":\"https://example.com/terms\",\"timestamp\":\"2025-01-01T00:00:00Z\",\"workspace_id\":\"w1\"\x7d"

def gatherDigest : Bytes :=
  [220, 115, 220, 138, 49, 122, 211, 58, 138, 213, 56, 126, 65, 71, 250, 149, 43, 123, 134, 173,
    79, 136, 101, 205, 224, 199, 120, 244, 115, 68, 235, 57]

def gatherSignature : Bytes :=
  [230, 229, 245, 196, 165, 3, 73, 68, 22, 74, 138, 121, 167, 146, 78, 124, 28, 214, 165, 37, 165,
    247, 51, 245, 104, 198, 191, 20, 232, 219, 180, 231, 155, 166, 24, 125, 239, 162, 161, 214,
    233, 58, 241, 231, 249, 140, 113, 185, 10, 118, 100, 9, 201, 208, 242, 37, 28, 25, 35, 235,
    176, 64, 46, 9]

/-- SHA-256 and Ed25519 on that call too. -/
def crypto : Crypto where
  sha256 bytes := if bytes = gatherBytes then gatherDigest else OpenTerms.Sample.digest
  publicKey _ := OpenTerms.Sample.publicKey
  sign _ message :=
    if message = domainSeparator ++ gatherDigest then gatherSignature else OpenTerms.Sample.signature
  verify key message signature := decide (key = OpenTerms.Sample.publicKey ∧ signature
    = if message = domainSeparator ++ gatherDigest then gatherSignature
      else OpenTerms.Sample.signature)

def keyPair : KeyPair crypto where
  seed := OpenTerms.Sample.seed
  seed_length := OpenTerms.Sample.seed_length
  publicKey_length := by decide
  sign_length m := by
    change (if m = _ then gatherSignature else OpenTerms.Sample.signature).length = 64
    split_ifs <;> rfl
  verify_sign m := decide_eq_true ⟨rfl, rfl⟩

def gatherLibs : Libs := { libs with crypto := crypto }

def jwks : PyDict := buildJwks [(OpenTerms.Sample.publicKey, lit "k1")]

theorem firstKey_jwks : FirstKey jwks config.client.keyId
    (publicKeyToJwk (crypto.publicKey keyPair.seed) config.client.keyId) :=
  ⟨[], [], rfl, rfl, nofun⟩

section

attribute [local instance] Ucd.allPrintable

/-- The call of the function with these arguments. -/
def gatherCall (args : List PyVal) : WrapperM Unit Unit :=
  wrapper config gatherLibs strOf gather none args []

/-- A text and an integer verify. -/
theorem gathered_verifies : ∃ request,
    PostsFirst (gatherCall [.str (lit "x"), .num (.int 1)]) request
      ∧ Verifies crypto jwks request.body := by
  obtain ⟨request, hposts, -⟩ := @exists_postsFirst _ _ _ (fun _ => .ok ())
    (gatherCall [.str (lit "x"), .num (.int 1)]) (by decide +kernel)
  refine ⟨request, hposts, (posted_verifies_iff gatherLibs keyPair Unit config strOf gather none
    _ _ request jwks legal_gather (by decide) (by decide) (by decide) rfl
    firstKey_jwks hposts).mpr (.inl ?_)⟩
  have hstar : starArgs gather [.str (lit "x"), .num (.int 1)] []
      = [.str (lit "x"), .num (.int 1)] := by decide
  rw [hstar]
  refine List.forall_mem_cons.mpr ⟨⟨trivial, rfl⟩, List.forall_mem_singleton.mpr ⟨?_, rfl⟩⟩
  exact (by decide : |(1 : ℤ)| ≤ maxSafeInteger)

/-- Whether a verifier finds a text valid. -/
def finds (body : PyStr) : Bool :=
  match loads body with
  | some (.obj receipt) =>
    match verifyReceipt crypto receipt jwks with
    | .ok res => res.valid
    | .error _ => false
  | _ => false

theorem finds_of_verifies {body : PyStr} (h : Verifies crypto jwks body) : finds body = true := by
  obtain ⟨receipt, res, hload, hverify, hvalid⟩ := h
  unfold finds
  rw [hload]
  dsimp only
  rw [hverify]
  exact hvalid

/-- The integer `2^53` is posted, and does not verify. -/
theorem gathered_refused : ∃ request,
    PostsFirst (gatherCall [.num (.int (2 ^ 53))]) request ∧ JsonNative (.num (.int (2 ^ 53)))
      ∧ FirstKey jwks config.client.keyId
        (publicKeyToJwk (crypto.publicKey keyPair.seed) config.client.keyId)
      ∧ ¬ Verifies crypto jwks request.body := by
  have hposted : ((firstPosted ((gatherCall [.num (.int (2 ^ 53))]).play
      (OpenTerms.answer fun _ => .ok ())).1).map fun request => finds request.body)
        = some false := by decide +kernel
  obtain ⟨request, hfirst, hfinds⟩ := Option.map_eq_some_iff.mp hposted
  refine ⟨request, (postsFirst_of_firstPosted hfirst).1, by decide, firstKey_jwks,
    fun h => ?_⟩
  rw [finds_of_verifies h] at hfinds
  cases hfinds

end

end Sample

end CrewAi

end OpenTerms
