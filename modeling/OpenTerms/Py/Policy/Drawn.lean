import OpenTerms.Common.JsonCarry
import OpenTerms.Py.HashBinding
import OpenTerms.Py.Policy.Validate
import OpenTerms.Py.Signable

/-!
# What the generator draws

However the draws come out, a payload is drawn as it should be, or something
is raised and the scenario is not well formed. `Textual`, `Payable` and
`Sound` say of a text, an amount and a value that the canonicalizer takes
them, if the scenario is; a payload is built from what is by what keeps to
it (`yields_buildReceiptPayload`).
-/

namespace OpenTerms

namespace Py

namespace Corpus

open Json Utf16

/-! ## Scenarios -/

/-- The texts a scenario puts in receipts. -/
def Scenario.texts (sc : Scenario) : List PyStr :=
  sc.workspaceId :: sc.issuer :: sc.toolDebug :: sc.termsUrlOffList :: sc.termsUrlBlocked
    :: (sc.keys.map KeyEntry.kid ++ sc.agents ++ sc.toolsAllowed ++ sc.toolsOffList
      ++ sc.termsUrlsAllowed)

/-- The lists it has something picked from. -/
def Scenario.pools (sc : Scenario) : List (List PyStr) :=
  [sc.agents, sc.toolsAllowed, sc.toolsOffList, sc.termsUrlsAllowed]

/-- The least and the greatest amounts it asks for. -/
def Scenario.ranges (sc : Scenario) : List (ℤ × ℤ) :=
  [(sc.amounts.maxAmountMin, sc.amounts.maxAmountMax), (0, sc.amounts.allowMax),
    (sc.amounts.escalationOnlyMin, sc.amounts.escalationOnlyMax),
    (sc.amounts.stressMin, sc.amounts.stressMax),
    (sc.amounts.dailyLimitPerReceipt, sc.amounts.dailyLimitPerReceipt)]

/-- How many milliseconds of the window its receipts can take up: all of it,
or up to the last one of a cluster. -/
def Scenario.reach (sc : Scenario) : ℤ :=
  max (totalMs (sc.finish.micros - sc.start.micros)) (18 * 86400000 + sc.count * 3600000)

/-- A scenario a corpus can be made of. -/
structure Scenario.WellFormed (sc : Scenario) : Prop where
  seed : 0 ≤ sc.seed ∧ sc.seed < 2 ^ 64
  count : (((bucketOrder.map fun b => (sc.buckets b).toNat).sum : ℕ) : ℤ) = sc.count
  window : 0 ≤ totalMs (sc.finish.micros - sc.start.micros)
    ∧ sc.start.micros + (sc.reach + 1) * 1000 < Calendar.millis * 1000
  kids : (sc.keys.map KeyEntry.kid).Nodup ∧ ∀ entry ∈ sc.keys, entry.kid ≠ []
  weights : GoodWeights (sc.keys.map KeyEntry.share)
  pools : ∀ pool ∈ sc.pools, pool ≠ []
  ranges : ∀ r ∈ sc.ranges, -maxSafeInteger ≤ r.1 ∧ r.1 ≤ r.2 ∧ r.2 ≤ maxSafeInteger
  texts : ∀ s ∈ sc.texts, NoSurrogate s

/-- What is raised, and the scenario is not well formed. -/
def Unmakable (sc : Scenario) (_ : CorpusErr) : Prop := ¬ sc.WellFormed

variable {sc : Scenario}

/-! ## What is picked -/

/-- A text, if the scenario is well formed. -/
def Textual (sc : Scenario) (s : PyStr) : Prop := sc.WellFormed → NoSurrogate s

/-- An amount, likewise. -/
def Payable (sc : Scenario) (z : ℤ) : Prop := sc.WellFormed → |z| ≤ maxSafeInteger

theorem textual_lit {s : String} (h : Ascii s) : Textual sc (lit s) :=
  fun _ => noSurrogate_ascii (lit_ascii h)

theorem textual_of_mem {s : PyStr} (h : s ∈ sc.texts) : Textual sc s := fun hsc => hsc.texts s h

theorem yields_pickOf {pool : List PyStr} (hpool : pool ∈ sc.pools)
    (htexts : ∀ s ∈ pool, s ∈ sc.texts) : (pick pool).Yields (Unmakable sc) (Textual sc) := by
  refine (yields_pick fun hempty hsc => hsc.pools pool hpool hempty).imp fun s hs => ?_
  exact textual_of_mem (htexts s hs)

theorem yields_pickAction {actions : List String} (hne : actions ≠ [])
    (hascii : ∀ s ∈ actions, Ascii s) :
    (pick (actions.map lit)).Yields (Unmakable sc) (Textual sc) := by
  refine (yields_pick fun hempty => absurd (List.map_eq_nil_iff.mp hempty) hne).imp fun s hs => ?_
  obtain ⟨t, ht, rfl⟩ := List.mem_map.mp hs
  exact textual_lit (hascii t ht)

theorem yields_amount {lo hi : ℤ} (h : (lo, hi) ∈ sc.ranges) :
    (randrange lo (hi + 1)).Yields (Unmakable sc) (Payable sc) := by
  refine (yields_randrange fun hempty hsc => ?_).imp ?_
  · have := (hsc.ranges _ h).2.1
    dsimp only at this
    omega
  · rintro z ⟨hlo, hhi⟩ hsc
    obtain ⟨h1, -, h2⟩ := hsc.ranges _ h
    dsimp only at h1 h2
    exact abs_le.mpr ⟨by omega, by omega⟩

theorem yields_hex (nBytes : ℕ) : (deterministicHex nBytes).Yields (Unmakable sc) (Textual sc) :=
  (yields_deterministicHex nBytes).imp fun _ h _ => h

/-! ## Drafts -/

/-- A draft whose texts and amount can be signed. -/
structure Draft.Fine (sc : Scenario) (d : Draft) : Prop where
  actionType : Textual sc d.actionType
  amount : Payable sc d.amount
  termsUrl : Textual sc d.termsUrl
  toolId : ∀ s ∈ d.toolId, Textual sc s
  postStateHash : ∀ s ∈ d.postStateHash, Textual sc s

theorem fine_of {d : Draft} (hactionType : Textual sc d.actionType) (hamount : Payable sc d.amount)
    (htermsUrl : Textual sc d.termsUrl) {toolId : PyStr} (htoolId : Textual sc toolId)
    (hsome : d.toolId = some toolId) (hnone : d.postStateHash = none) : d.Fine sc := by
  refine ⟨hactionType, hamount, htermsUrl, ?_, ?_⟩
  · rintro s hs
    rw [hsome] at hs
    exact Option.some.inj hs ▸ htoolId
  · rintro s hs
    rw [hnone] at hs
    cases hs

theorem yields_anyAction : (pick anyAction).Yields (Unmakable sc) (Textual sc) :=
  yields_pickAction (by simp) (by decide)

theorem yields_unpaidAction : (pick unpaidAction).Yields (Unmakable sc) (Textual sc) :=
  yields_pickAction (by simp) (by decide)

theorem yields_termsUrl : (pick sc.termsUrlsAllowed).Yields (Unmakable sc) (Textual sc) :=
  yields_pickOf (by simp [Scenario.pools]) fun s hs => by simp [Scenario.texts, hs]

theorem yields_tool : (pick sc.toolsAllowed).Yields (Unmakable sc) (Textual sc) :=
  yields_pickOf (by simp [Scenario.pools]) fun s hs => by simp [Scenario.texts, hs]

theorem yields_toolOffList : (pick sc.toolsOffList).Yields (Unmakable sc) (Textual sc) :=
  yields_pickOf (by simp [Scenario.pools]) fun s hs => by simp [Scenario.texts, hs]

theorem yields_allowed :
    (randrange 0 (sc.amounts.allowMax + 1)).Yields (Unmakable sc) (Payable sc) :=
  yields_amount (by simp [Scenario.ranges])

/-- **What every bucket drafts** can be signed, where the scenario is well
formed. -/
theorem yields_draft (bucket : Bucket) :
    (draft sc bucket).Yields (Unmakable sc) (Draft.Fine sc) := by
  cases bucket with
  | modelTraining =>
    refine (yields_randrange fun h => absurd h (by decide)).bind fun amount hamount => ?_
    refine yields_termsUrl.bind fun termsUrl hurl => yields_tool.bind fun toolId htool => ?_
    have hpay : Payable sc amount := fun _ => abs_le.mpr (by unfold maxSafeInteger; omega)
    exact Prog.yields_done.mpr (fine_of (textual_lit (by decide)) hpay hurl htool rfl rfl)
  | maxAmount =>
    refine yields_anyAction.bind fun actionType haction => ?_
    refine (yields_amount (by simp [Scenario.ranges])).bind fun amount hpay => ?_
    refine yields_termsUrl.bind fun termsUrl hurl => yields_tool.bind fun toolId htool => ?_
    exact Prog.yields_done.mpr (fine_of haction hpay hurl htool rfl rfl)
  | urlOffList =>
    refine yields_anyAction.bind fun actionType haction => ?_
    refine yields_allowed.bind fun amount hpay => yields_tool.bind fun toolId htool => ?_
    have hurl : Textual sc sc.termsUrlOffList := textual_of_mem (by simp [Scenario.texts])
    exact Prog.yields_done.mpr (fine_of haction hpay hurl htool rfl rfl)
  | urlBlocked =>
    refine yields_anyAction.bind fun actionType haction => ?_
    refine yields_allowed.bind fun amount hpay => yields_tool.bind fun toolId htool => ?_
    have hurl : Textual sc sc.termsUrlBlocked := textual_of_mem (by simp [Scenario.texts])
    exact Prog.yields_done.mpr (fine_of haction hpay hurl htool rfl rfl)
  | argsDebug =>
    refine yields_unpaidAction.bind fun actionType haction => ?_
    refine yields_allowed.bind fun amount hpay => yields_termsUrl.bind fun termsUrl hurl => ?_
    have htool : Textual sc sc.toolDebug := textual_of_mem (by simp [Scenario.texts])
    exact Prog.yields_done.mpr (fine_of haction hpay hurl htool rfl rfl)
  | dailyLimit =>
    refine (yields_pickAction (by simp) (by decide)).bind fun actionType haction => ?_
    refine yields_termsUrl.bind fun termsUrl hurl => yields_tool.bind fun toolId htool => ?_
    have hpay : Payable sc sc.amounts.dailyLimitPerReceipt := by
      intro hsc
      obtain ⟨h1, -, h2⟩ := hsc.ranges
        (sc.amounts.dailyLimitPerReceipt, sc.amounts.dailyLimitPerReceipt)
        (by simp [Scenario.ranges])
      exact abs_le.mpr ⟨h1, h2⟩
    exact Prog.yields_done.mpr (fine_of haction hpay hurl htool rfl rfl)
  | escalationOnly =>
    refine yields_anyAction.bind fun actionType haction => ?_
    refine (yields_amount (by simp [Scenario.ranges])).bind fun amount hpay => ?_
    refine yields_termsUrl.bind fun termsUrl hurl => yields_tool.bind fun toolId htool => ?_
    exact Prog.yields_done.mpr (fine_of haction hpay hurl htool rfl rfl)
  | toolOffList =>
    refine yields_unpaidAction.bind fun actionType haction => ?_
    refine yields_allowed.bind fun amount hpay => yields_termsUrl.bind fun termsUrl hurl => ?_
    refine yields_toolOffList.bind fun toolId htool => ?_
    exact Prog.yields_done.mpr (fine_of haction hpay hurl htool rfl rfl)
  | postStateMismatch =>
    refine yields_unpaidAction.bind fun actionType haction => ?_
    refine yields_allowed.bind fun amount hpay => yields_termsUrl.bind fun termsUrl hurl => ?_
    refine yields_tool.bind fun toolId htool => (yields_hex 32).bind fun hash hhash => ?_
    refine Prog.yields_done.mpr ⟨haction, hpay, hurl, ?_, ?_⟩
    · rintro s hs
      exact Option.some.inj hs ▸ htool
    · rintro s hs
      exact Option.some.inj hs ▸ hhash
  | stress =>
    refine (yields_amount (by simp [Scenario.ranges])).bind fun amount hpay => ?_
    refine yields_tool.bind fun toolId htool => ?_
    have hurl : Textual sc sc.termsUrlOffList := textual_of_mem (by simp [Scenario.texts])
    exact Prog.yields_done.mpr (fine_of (textual_lit (by decide)) hpay hurl htool rfl rfl)
  | allow =>
    refine yields_anyAction.bind fun actionType haction => ?_
    refine yields_allowed.bind fun amount hpay => yields_termsUrl.bind fun termsUrl hurl => ?_
    refine (yields_chance 5).bind fun omitted _ => ?_
    have htool : (if omitted then pure none else do
        let toolId ← pick sc.toolsAllowed
        pure (some toolId) : Script (Option PyStr)).Yields (Unmakable sc)
          fun toolId => ∀ s ∈ toolId, Textual sc s := by
      cases omitted with
      | true => exact Prog.yields_done.mpr fun s hs => by cases hs
      | false =>
        refine yields_tool.bind fun toolId htool => Prog.yields_done.mpr ?_
        rintro s hs
        exact Option.some.inj hs ▸ htool
    refine htool.bind fun toolId htool => (yields_chance 18).bind fun includeChain _ => ?_
    exact Prog.yields_done.mpr ⟨haction, hpay, hurl, htool, fun s hs => by cases hs⟩

/-! ## Values that can be signed -/

/-- A value the canonicalizer takes, nulls and what they hide included. -/
def Writable (v : PyVal) : Prop :=
  Every SafeNum NoSurrogate (fun k => BmpName k ∧ NoSurrogate k) v

theorem Writable.canonicalize {v : PyVal} (h : Writable v) :
    ∃ bytes, Py.canonicalize v = .ok bytes := by
  refine canonicalize_isOk_iff.mpr ⟨?_, Every.stripNulls ?_⟩
  · exact Every.imp (fun _ h => h) (fun _ _ => trivial) (fun _ h => h.1) h
  · exact Every.imp (fun _ _ => trivial) (fun _ h => h) (fun _ h => h.2) h

/-- A value with its names once, and writable if the scenario is well
formed. -/
def Sound (sc : Scenario) (v : PyVal) : Prop := UniqueNames v ∧ (sc.WellFormed → Writable v)

theorem sound_str {s : PyStr} (h : Textual sc s) : Sound sc (.str s) := ⟨trivial, h⟩

theorem sound_lit {s : String} (h : Ascii s) : Sound sc (.str (lit s)) := sound_str (textual_lit h)

theorem sound_int {z : ℤ} (h : Payable sc z) : Sound sc (.num (.int z)) := ⟨trivial, h⟩

theorem plain_lit {s : String} (h : Ascii s) :
    BmpName (lit s) ∧ NoSurrogate (lit s : PyStr) := by
  refine ⟨fun c hc => ?_, noSurrogate_ascii (lit_ascii h)⟩
  have := lit_ascii h c hc
  omega

theorem Sound.set {k : String} {v : PyVal} {ms : PyDict} (h : Sound sc (.obj ms)) (hk : Ascii k)
    (hv : Sound sc v) : Sound sc (.obj (set (lit k) v ms)) :=
  ⟨UniqueNames.set hv.1 h.1, fun hsc => Every.set (plain_lit hk) (hv.2 hsc) (h.2 hsc)⟩

/-- A dict written out, its names being different literals. -/
theorem sound_obj {ms : PyDict} {ks : List String} (hnames : names ms = ks.map lit)
    (hks : (∀ k ∈ ks, Ascii k) ∧ (ks.map lit : List PyStr).Nodup)
    (h : ∀ m ∈ ms, Sound sc m.2) : Sound sc (.obj ms) := by
  refine ⟨uniqueNames_obj.mpr ⟨hnames ▸ hks.2, fun m hm => (h m hm).1⟩, fun hsc => ?_⟩
  refine every_obj.mpr fun m hm => ⟨?_, (h m hm).2 hsc⟩
  have hm : m.1 ∈ ks.map lit := hnames ▸ List.mem_map_of_mem hm
  obtain ⟨k, hk, hkm⟩ := List.mem_map.mp hm
  exact hkm ▸ plain_lit (hks.1 k hk)

theorem sound_empty : Sound sc (.obj []) :=
  sound_obj (show names [] = [].map lit from rfl) (by decide) (List.forall_mem_nil _)

/-! ## Commitments -/

theorem sound_toolCommitment {toolId : Option PyStr} (h : ∀ s ∈ toolId, Textual sc s) :
    Sound sc (.obj (toolCommitment toolId)) := by
  cases toolId with
  | none => exact sound_empty
  | some toolId =>
    refine sound_obj (show _ = ["tool_id"].map lit from rfl) (by decide) ?_
    simp only [toolCommitment, List.forall_mem_cons]
    exact ⟨sound_str (h toolId rfl), List.forall_mem_nil _⟩

theorem yields_commitments {d : Draft} (hd : d.Fine sc) :
    (commitments d).Yields (Unmakable sc) fun out => Sound sc (.obj out) := by
  unfold commitments
  split
  case isFalse => exact Prog.yields_done.mpr sound_empty
  have htool := sound_toolCommitment hd.toolId
  dsimp only
  generalize toolCommitment d.toolId = out at htool ⊢
  refine (yields_chance 50).bind fun withArgs _ => ?_
  have hargs : (if withArgs then do
      let argsHash ← deterministicHex 32
      pure (set (lit "args_hash") (.str argsHash) out)
    else pure out : Script PyDict).Yields (Unmakable sc) fun out => Sound sc (.obj out) := by
    split
    · refine (yields_hex 32).bind fun hash hhash => Prog.yields_done.mpr ?_
      exact htool.set (by decide) (sound_str hhash)
    · exact Prog.yields_done.mpr htool
  refine hargs.bind fun out hout => ?_
  split
  · next hash hsome =>
    exact Prog.yields_done.mpr (hout.set (by decide) (sound_str (hd.postStateHash hash hsome)))
  · refine (yields_chance 15).bind fun withStates _ => ?_
    split
    · refine (yields_hex 32).bind fun hash hhash => Prog.yields_done.mpr ?_
      have hzeros : Textual sc (List.replicate 64 (chr '0')) := by
        refine fun _ => noSurrogate_ascii fun c hc => ?_
        obtain rfl := List.eq_of_mem_replicate hc
        decide
      exact (hout.set (by decide) (sound_str hhash)).set (by decide) (sound_str hzeros)
    · exact Prog.yields_done.mpr hout

/-! ## Chains -/

/-- A chain whose texts can be signed. -/
structure Chain.Fine (sc : Scenario) (c : Chain) : Prop where
  parentReceiptId : Textual sc c.parentReceiptId
  chainId : Textual sc c.chainId
  originatingAgent : Textual sc c.originatingAgent

/-- **How a chain goes on**: by a link, or by the first one of another. -/
inductive Extends (receiptId agentId : PyStr) (chain : Option Chain) : PyDict → Chain → Prop where
  | link {c : Chain} (hc : c ∈ chain) (hdepth : c.depth < 3) :
    Extends receiptId agentId chain (linkDict c)
      { c with parentReceiptId := receiptId, depth := c.depth + 1 }
  | root {chainId : PyStr} :
    Extends receiptId agentId chain (rootDict chainId agentId)
      { parentReceiptId := receiptId, chainId, depth := 1, originatingAgent := agentId }

/-- And what a receipt has of it. -/
inductive Places (receiptId agentId : PyStr) (chain : Option Chain) : PyVal → Option Chain → Prop where
  | apart : Places receiptId agentId chain .null none
  | chained {link : PyDict} {next : Chain} (h : Extends receiptId agentId chain link next) :
    Places receiptId agentId chain (.obj link) (some next)

theorem sound_linkDict {c : Chain} (hc : c.Fine sc) (hdepth : c.depth < 3) :
    Sound sc (.obj (linkDict c)) := by
  have hpay : Payable sc c.depth := fun _ => abs_le.mpr (by unfold maxSafeInteger; omega)
  refine sound_obj (show _ = ["parent_receipt_id", "chain_id", "chain_depth",
    "originating_agent"].map lit from rfl) (by decide) ?_
  simp only [linkDict, List.forall_mem_cons]
  exact ⟨sound_str hc.parentReceiptId, sound_str hc.chainId, sound_int hpay,
    sound_str hc.originatingAgent, List.forall_mem_nil _⟩

theorem sound_rootDict {chainId agentId : PyStr} (hchain : Textual sc chainId)
    (hagent : Textual sc agentId) : Sound sc (.obj (rootDict chainId agentId)) := by
  have hpay : Payable sc 0 := fun _ => by decide
  refine sound_obj (show _ = ["chain_id", "chain_depth", "originating_agent"].map lit from rfl)
    (by decide) ?_
  simp only [rootDict, List.forall_mem_cons]
  exact ⟨sound_str hchain, sound_int hpay, sound_str hagent, List.forall_mem_nil _⟩

variable {receiptId agentId : PyStr} {chain : Option Chain}

/-- **One step of a chain.** -/
theorem yields_chainStep (hreceipt : Textual sc receiptId) (hagent : Textual sc agentId)
    (hchain : ∀ c ∈ chain, c.Fine sc) :
    (chainStep receiptId agentId chain).Yields (Unmakable sc) fun out =>
      Sound sc (.obj out.1) ∧ out.2.Fine sc ∧ Extends receiptId agentId chain out.1 out.2 := by
  unfold chainStep
  split
  · next c hc =>
    obtain ⟨hc, hdepth⟩ := Option.filter_eq_some_iff.mp hc
    have hdepth : c.depth < 3 := by simpa using hdepth
    obtain ⟨-, hid, horigin⟩ := hchain c hc
    exact Prog.yields_done.mpr ⟨sound_linkDict (hchain c hc) hdepth, ⟨hreceipt, hid, horigin⟩,
      .link hc hdepth⟩
  · refine (yields_hex 4).bind fun suffix hsuffix => Prog.yields_done.mpr ?_
    have hid : Textual sc (lit "chain-" ++ suffix) := by
      intro hsc c hc
      rcases List.mem_append.mp hc with hc | hc
      · exact noSurrogate_ascii (lit_ascii (by decide)) c hc
      · exact hsuffix hsc c hc
    exact ⟨sound_rootDict hid hagent, ⟨hreceipt, hid, hagent⟩, .root⟩

/-- **The members under `ors`**: no chain, or a step of one. -/
theorem yields_orsMembers {d : Draft} (hd : d.Fine sc) (hreceipt : Textual sc receiptId)
    (hagent : Textual sc agentId) (hchain : ∀ c ∈ chain, c.Fine sc) :
    (orsMembers d receiptId agentId chain).Yields (Unmakable sc) fun out =>
      Sound sc (.obj out.1) ∧ (∀ c ∈ out.2, c.Fine sc)
        ∧ Places receiptId agentId chain (getD (lit "chain") out.1) out.2 := by
  unfold orsMembers
  refine (yields_commitments hd).bind fun out hout => ?_
  dsimp only
  generalize hors : (if out ≠ [] then [(lit "commitments", .obj out)] else [] : PyDict) = ors
  have hsound : Sound sc (.obj ors) ∧ getD (lit "chain") ors = .null := by
    rw [← hors]
    split
    · refine ⟨sound_obj (show _ = ["commitments"].map lit from rfl) (by decide) ?_, rfl⟩
      rw [List.forall_mem_singleton]
      exact hout
    · exact ⟨sound_empty, rfl⟩
  split
  · refine (yields_chainStep hreceipt hagent hchain).bind ?_
    rintro ⟨link, next⟩ ⟨hlink, hnext, hextends⟩
    refine Prog.yields_done.mpr ⟨hsound.1.set (by decide) hlink, ?_, ?_⟩
    · rintro c hc
      exact Option.some.inj hc ▸ hnext
    · rw [getD, get?_set, if_pos rfl]
      exact .chained hextends
  · refine Prog.yields_done.mpr ⟨hsound.1, (fun c hc => by cases hc), ?_⟩
    rw [hsound.2]
    exact .apart

/-! ## Payloads -/

/-- The members that come last. -/
def lastKeys : List PyStr := ["provider", "request_binding", "ors_version"].map lit

/-- A payload with the last members perhaps added. -/
structure Adds (sc : Scenario) (base p : PyDict) : Prop where
  sound : Sound sc (.obj p)
  signed : ∀ k ∈ names p, k ∈ signedKeys
  same : ∀ k ∉ lastKeys, get? k p = get? k base

/-- A name assigned to is there, and no other one is new. -/
theorem mem_names_set {V : Type} {k k' : PyStr} {v : V} {ms : List (PyStr × V)} :
    k' ∈ names (set k v ms) ↔ k' = k ∨ k' ∈ names ms := by
  rw [← not_iff_not, ← get?_eq_none_iff, get?_set, not_or, ← get?_eq_none_iff]
  by_cases h : k = k'
  · rw [if_pos h]
    simp [h]
  · rw [if_neg h]
    simp [Ne.symm h]

theorem Adds.set {base p : PyDict} {k : String} {v : PyVal} (h : Adds sc base p) (hk : Ascii k)
    (hlast : lit k ∈ lastKeys ∧ lit k ∈ signedKeys) (hv : Sound sc v) :
    Adds sc base (set (lit k) v p) := by
  refine ⟨h.sound.set hk hv, fun k' hk' => ?_, fun k' hk' => ?_⟩
  · rcases mem_names_set.mp hk' with rfl | hk'
    · exact hlast.2
    · exact h.signed k' hk'
  · have hne : lit k ≠ k' := by
      rintro rfl
      exact hk' hlast.1
    rw [get?_set, if_neg hne]
    exact h.same k' hk'

theorem Adds.ite {base p : PyDict} {b : Bool} {k : String} {v : PyVal} (h : Adds sc base p)
    (hk : Ascii k) (hlast : lit k ∈ lastKeys ∧ lit k ∈ signedKeys) (hv : Sound sc v) :
    Adds sc base (if b then Json.set (lit k) v p else p) := by
  cases b with
  | true => exact h.set hk hlast hv
  | false => exact h

variable {t : DateTime}

/-- **A payload as the script draws it**, in a chain or not. -/
structure Drawn (sc : Scenario) (t : DateTime) (receiptId : PyStr) (chain next : Option Chain)
    (p : PyDict) : Prop where
  sound : Sound sc (.obj p)
  signed : ∀ k ∈ names p, k ∈ signedKeys
  required : ∀ k ∈ signedRequired, k ∈ names p
  receiptId_eq : get? (lit "receipt_id") p = some (.str receiptId)
  timestamp : get? (lit "timestamp") p = some (.str (toIsoZ t))
  created : ∃ u, t.addMs 1 = .ok u ∧ get? (lit "created_at") p = some (.str (toIsoZ u))
  amount : ∃ z : ℤ, get? (lit "amount_charged") p = some (.num (.int z))
  actionType : ∃ s, get? (lit "action_type") p = some (.str s)
  fine : ∀ c ∈ next, c.Fine sc
  place : ∃ agentId v, get? (lit "agent_id") p = some (.str agentId) ∧ chainOf p = .ok v
    ∧ Places receiptId agentId chain v next

theorem toIsoZ_textual (t : DateTime) : Textual sc (toIsoZ t) :=
  fun _ => noSurrogate_ascii (Calendar.isoText_ascii _)

/-- The names of the members every payload has. -/
def baseKeys : List String :=
  ["workspace_id", "agent_id", "action_type", "terms_url", "terms_hash", "timestamp",
    "pricing_version", "receipt_id", "amount_charged", "created_at", "issuer"]

theorem names_basePayload (d : Draft) (agentId termsHash receiptId : PyStr) (t u : DateTime) :
    names (basePayload sc d agentId termsHash receiptId t u) = baseKeys.map lit := rfl

theorem sound_basePayload {d : Draft} (hd : d.Fine sc) {termsHash : PyStr}
    (hagent : Textual sc agentId) (hhash : Textual sc termsHash) (hreceipt : Textual sc receiptId)
    (u : DateTime) : Sound sc (.obj (basePayload sc d agentId termsHash receiptId t u)) := by
  refine sound_obj (names_basePayload d agentId termsHash receiptId t u) (by decide) ?_
  have hworkspace : Textual sc sc.workspaceId := textual_of_mem (by simp [Scenario.texts])
  have hissuer : Textual sc sc.issuer := textual_of_mem (by simp [Scenario.texts])
  simp only [basePayload, List.forall_mem_cons]
  exact ⟨sound_str hworkspace, sound_str hagent, sound_str hd.actionType, sound_str hd.termsUrl,
    sound_str hhash, sound_str (toIsoZ_textual t), sound_lit (by decide), sound_str hreceipt,
    sound_int hd.amount, sound_str (toIsoZ_textual u), sound_str hissuer, List.forall_mem_nil _⟩

theorem get?_withContext {ors base : PyDict} {k : PyStr} (hk : k ≠ lit "action_context") :
    get? k (withContext ors base) = get? k base := by
  unfold withContext
  split
  · rw [get?_set, if_neg (Ne.symm hk)]
  · rfl

/-- **The chain read back.** -/
theorem chainOf_withContext {ors base : PyDict} (hbase : lit "action_context" ∉ names base) :
    chainOf (withContext ors base) = .ok (getD (lit "chain") ors) := by
  unfold withContext chainOf
  by_cases hors : ors ≠ []
  · rw [if_pos hors, get?_set, if_pos rfl]
    rfl
  · rw [if_neg hors, get?_eq_none_iff.mpr hbase, not_not.mp hors]
    rfl

/-- It is in the context. -/
theorem chainOf_congr {r r' : PyDict}
    (h : get? (lit "action_context") r = get? (lit "action_context") r') :
    chainOf r = chainOf r' := by
  unfold chainOf
  rw [h]

theorem adds_withContext {ors base : PyDict} (hbase : Sound sc (.obj base))
    (hsigned : ∀ k ∈ names base, k ∈ signedKeys) (hors : Sound sc (.obj ors)) :
    Adds sc (withContext ors base) (withContext ors base) := by
  unfold withContext
  split
  · have hcontext : Sound sc (.obj [(lit "ors", .obj ors)]) := by
      refine sound_obj (show _ = ["ors"].map lit from rfl) (by decide) ?_
      rw [List.forall_mem_singleton]
      exact hors
    refine ⟨hbase.set (by decide) hcontext, fun k hk => ?_, fun _ _ => rfl⟩
    rcases mem_names_set.mp hk with rfl | hk
    · decide
    · exact hsigned k hk
  · exact ⟨hbase, hsigned, fun _ _ => rfl⟩

/-- What a payload with all that is, is drawn as it should be. -/
theorem drawn_of_adds {d : Draft} {termsHash : PyStr} {u : DateTime} {ors p : PyDict}
    {next : Option Chain} (hu : t.addMs 1 = .ok u)
    (h : Adds sc (withContext ors (basePayload sc d agentId termsHash receiptId t u)) p)
    (hnext : ∀ c ∈ next, c.Fine sc)
    (hplace : Places receiptId agentId chain (getD (lit "chain") ors) next) :
    Drawn sc t receiptId chain next p := by
  have hread (k : PyStr) (hk : k ∈ baseKeys.map lit) :
      get? k p = get? k (basePayload sc d agentId termsHash receiptId t u) := by
    have hfirst : ∀ k ∈ baseKeys.map lit, k ∉ lastKeys ∧ k ≠ lit "action_context" := by decide
    rw [h.same k (hfirst k hk).1, get?_withContext (hfirst k hk).2]
  refine ⟨h.sound, h.signed, fun k hk => ?_, hread _ (by decide), hread _ (by decide),
    ⟨u, hu, hread _ (by decide)⟩, ⟨d.amount, hread _ (by decide)⟩,
    ⟨d.actionType, hread _ (by decide)⟩, hnext, ?_⟩
  · have hbase : ∀ k ∈ signedRequired, k ∈ baseKeys.map lit := by decide
    by_contra hmissing
    rw [← get?_eq_none_iff, hread k (hbase k hk), get?_eq_none_iff, names_basePayload] at hmissing
    exact hmissing (hbase k hk)
  · refine ⟨agentId, _, hread _ (by decide), ?_, hplace⟩
    rw [chainOf_congr (h.same _ (by decide)), chainOf_withContext]
    rw [names_basePayload]
    decide

/-- **Every payload drawn** is one. -/
theorem yields_buildReceiptPayload (bucket : Bucket) (hreceipt : Textual sc receiptId)
    (hchain : ∀ c ∈ chain, c.Fine sc)
    (hroom : sc.WellFormed → t.micros + 1000 < Calendar.millis * 1000) :
    (buildReceiptPayload sc bucket t receiptId chain).Yields (Unmakable sc) fun out =>
      Drawn sc t receiptId chain out.2 out.1 := by
  unfold buildReceiptPayload
  have hagents : (pick sc.agents).Yields (Unmakable sc) (Textual sc) :=
    yields_pickOf (by simp [Scenario.pools]) fun s hs => by simp [Scenario.texts, hs]
  refine hagents.bind fun agentId hagent => (yields_chance 20).bind fun includeProvider _ => ?_
  refine (yields_chance 10).bind fun includeRequestBinding _ => ?_
  refine (yields_chance 5).bind fun includeV02Fields _ => (yields_draft bucket).bind fun d hd => ?_
  refine (yields_hex 32).bind fun termsHash hhash => ?_
  cases hu : t.addMs 1 with
  | error e =>
    refine Prog.yields_done.mpr fun hsc => ?_
    have := hroom hsc
    unfold DateTime.addMs at hu
    rw [dif_pos (by omega)] at hu
    cases hu
  | ok u =>
    rw [Prog.lift_eq, Prog.done_ok_bind]
    dsimp only
    refine (yields_orsMembers hd hreceipt hagent hchain).bind ?_
    rintro ⟨ors, next⟩ ⟨hors, hnext, hplace⟩
    dsimp only
    have hbase := sound_basePayload (t := t) hd hagent hhash hreceipt u
    have hstart := adds_withContext hbase (by rw [names_basePayload]; decide) hors
    have hprovider : Sound sc (.obj [(lit "origin", .str (lit "https://api.openai.com")),
        (lit "provider_id", .str (lit "openai"))]) := by
      refine sound_obj (show _ = ["origin", "provider_id"].map lit from rfl) (by decide) ?_
      simp only [List.forall_mem_cons]
      exact ⟨sound_lit (by decide), sound_lit (by decide), List.forall_mem_nil _⟩
    have hadds := hstart.ite (b := includeProvider) (k := "provider") (by decide) (by decide) hprovider
    generalize (if includeProvider then _ else _ : PyDict) = p at hadds ⊢
    have hbound : (if includeRequestBinding then do
        let nonce ← deterministicHex 16
        pure (set (lit "request_binding") (.obj [(lit "provider_nonce", .str nonce),
          (lit "binding_method", .str (lit "provider_nonce"))]) p)
      else pure p : Script PyDict).Yields (Unmakable sc)
          (Adds sc (withContext ors (basePayload sc d agentId termsHash receiptId t u))) := by
      split
      · refine (yields_hex 16).bind fun nonce hnonce => Prog.yields_done.mpr ?_
        refine hadds.set (by decide) (by decide) ?_
        refine sound_obj (show _ = ["provider_nonce", "binding_method"].map lit from rfl)
          (by decide) ?_
        simp only [List.forall_mem_cons]
        exact ⟨sound_str hnonce, sound_lit (by decide), List.forall_mem_nil _⟩
      · exact Prog.yields_done.mpr hadds
    refine hbound.bind fun p hadds => Prog.yields_done.mpr ?_
    have hversion : Sound sc (.str (lit "0.2")) := sound_lit (by decide)
    exact drawn_of_adds hu (hadds.ite (k := "ors_version") (by decide) (by decide) hversion) hnext
      hplace

end Corpus

end Py

end OpenTerms
