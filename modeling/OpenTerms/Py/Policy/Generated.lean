import OpenTerms.Py.Policy.Drawn

/-!
# What the generator makes

However the draws come out, the generator ends in one of two ways. Where the
scenario is well formed it returns a receipt for each place it assigned, in
order of time, and each verifies under the JWKS it returns with them
(`corpus_verifies`). Where it raises, the scenario is not. Receipts that are
links of one chain stand next to each other (`chains_consecutive`).
-/

namespace OpenTerms

namespace Py

namespace Corpus

open Json

variable {sc : Scenario} {chain : Option Chain}

/-! ## Keys -/

/-- What RFC 8032 and SHA-256 promise of the primitives: any 32 bytes are a
key's seed, and a hash has 32. -/
structure Standard (crypto : Crypto) : Prop where
  sha256_length : ∀ bs, (crypto.sha256 bs).length = 32
  keyPair : ∀ seed : Bytes, seed.length = 32 → ∃ kp : KeyPair crypto, kp.seed = seed

variable {crypto : Crypto}

/-- The keys of a scenario, under their ids, each derived by a hash. -/
structure Keyring (crypto : Crypto) (sc : Scenario) (keys : List (PyStr × (Bytes × KeyEntry))) :
    Prop where
  nodup : (names keys).Nodup
  derived : ∀ key ∈ keys, ∃ bs, key.2.1 = crypto.sha256 bs
  entries : sc.WellFormed → keys.map (fun key => key.2.2) = sc.keys
    ∧ names keys = sc.keys.map KeyEntry.kid

theorem deriveKeySeed_succeeds {master : ℤ} {kid : PyStr} (hmaster : 0 ≤ master ∧ master < 2 ^ 64)
    (hkid : NoSurrogate kid) : Succeeds (deriveKeySeed crypto master kid) := by
  obtain ⟨bytes, hbytes⟩ := encodeUtf8_isOk_iff.mpr hkid
  unfold deriveKeySeed
  rw [raiseWhen_neg (by omega), ok_bind, hbytes]
  exact succeeds_ok _

theorem makeKeysFrom_ok {master : ℤ} {entries : List KeyEntry}
    {keys out : List (PyStr × (Bytes × KeyEntry))}
    (h : makeKeysFrom crypto master entries keys = .ok out) (hnodup : (names keys).Nodup)
    (hderived : ∀ key ∈ keys, ∃ bs, key.2.1 = crypto.sha256 bs) :
    (names out).Nodup ∧ (∀ key ∈ out, ∃ bs, key.2.1 = crypto.sha256 bs)
      ∧ ((names keys ++ entries.map KeyEntry.kid).Nodup →
        out.map (fun key => key.2.2) = keys.map (fun key => key.2.2) ++ entries
          ∧ names out = names keys ++ entries.map KeyEntry.kid) := by
  induction entries generalizing keys with
  | nil =>
    obtain rfl := Except.ok.inj h
    exact ⟨hnodup, hderived, fun _ => by simp⟩
  | cons entry entries ih =>
    obtain ⟨seed, hseed, h⟩ := bind_eq_ok_iff.mp h
    obtain ⟨-, hseed⟩ := check_eq_ok_iff.mp hseed
    obtain ⟨bytes, -, hseed⟩ := bind_eq_ok_iff.mp hseed
    obtain rfl := Except.ok.inj hseed
    obtain ⟨hout, hseeds, hall⟩ := ih h (nodup_names_set hnodup) fun key hkey => by
      rcases mem_of_mem_set hkey with rfl | hkey
      · exact ⟨_, rfl⟩
      · exact hderived key hkey
    refine ⟨hout, hseeds, fun hdistinct => ?_⟩
    have hnew : entry.kid ∉ names keys := by
      rw [List.map_cons, List.nodup_append] at hdistinct
      exact fun hmem => hdistinct.2.2 _ hmem _ List.mem_cons_self rfl
    have hnames (seed : Bytes) :
        names (set entry.kid (seed, entry) keys) = names keys ++ [entry.kid] := by
      rw [set_of_notMem hnew]
      simp [names]
    rw [hnames, List.append_assoc, List.singleton_append] at hall
    obtain ⟨hentries, hkids⟩ := hall hdistinct
    refine ⟨?_, hkids⟩
    rw [hentries, set_of_notMem hnew]
    simp

theorem makeKeysFrom_succeeds {master : ℤ} {entries : List KeyEntry}
    (hmaster : 0 ≤ master ∧ master < 2 ^ 64) (hkids : ∀ entry ∈ entries, NoSurrogate entry.kid)
    (keys : List (PyStr × (Bytes × KeyEntry))) :
    Succeeds (makeKeysFrom crypto master entries keys) := by
  induction entries generalizing keys with
  | nil => exact succeeds_ok keys
  | cons entry entries ih =>
    rw [List.forall_mem_cons] at hkids
    obtain ⟨seed, hseed⟩ := deriveKeySeed_succeeds hmaster hkids.1
    exact succeeds_bind_iff.mpr ⟨seed, hseed, ih hkids.2 _⟩

/-- **The keys**: none that cannot be made, where the scenario is well
formed. -/
theorem yields_makeKeys :
    (liftM (makeKeys crypto sc) : Script _).Yields (Unmakable sc) (Keyring crypto sc) := by
  rw [Prog.lift_eq, Prog.yields_done]
  cases hkeys : makeKeys crypto sc with
  | ok keys =>
    obtain ⟨hnodup, hderived, hentries⟩ :=
      makeKeysFrom_ok hkeys List.nodup_nil (fun key hkey => by cases hkey)
    exact ⟨hnodup, hderived, fun hsc => hentries hsc.kids.1⟩
  | error e =>
    intro hsc
    have hkids : ∀ entry ∈ sc.keys, NoSurrogate entry.kid := by
      intro entry hentry
      refine hsc.texts entry.kid ?_
      simp only [Scenario.texts, List.mem_cons, List.mem_append]
      have := List.mem_map_of_mem (f := KeyEntry.kid) hentry
      tauto
    have hmade : Succeeds (makeKeysFrom crypto sc.seed sc.keys []) :=
      makeKeysFrom_succeeds hsc.seed hkids []
    obtain ⟨keys, hok⟩ := hmade
    cases hkeys.symm.trans hok

/-! ## Times -/

/-- A time moved, in the years there are. -/
theorem addMs_ok {t : DateTime} {ms : ℤ}
    (h : 0 ≤ t.micros + ms * 1000 ∧ t.micros + ms * 1000 < Calendar.millis * 1000) :
    ∃ u, t.addMs ms = .ok u ∧ (u.micros : ℤ) = t.micros + ms * 1000 := by
  unfold DateTime.addMs
  rw [dif_pos h]
  exact ⟨_, rfl, Int.toNat_of_nonneg h.1⟩

/-- How far a receipt lies into the window. -/
theorem offsetMs_mem {total reach : ℤ} {n i k : ℕ} (hi : i < n) (hk : k ≤ i) (htotal : 0 ≤ total)
    (hreach : max total (18 * 86400000 + n * 3600000) ≤ reach) (bucket : Bucket) :
    0 ≤ offsetMs total n i k bucket ∧ offsetMs total n i k bucket ≤ reach := by
  obtain ⟨h1, h2⟩ := max_le_iff.mp hreach
  have hspread : 0 ≤ i * total / max ((n : ℤ) - 1) 1 ∧ i * total / max ((n : ℤ) - 1) 1 ≤ reach := by
    have hpos : 0 < max ((n : ℤ) - 1) 1 := lt_max_of_lt_right one_pos
    refine ⟨Int.ediv_nonneg (by positivity) hpos.le, le_trans (Int.ediv_le_of_le_mul hpos ?_) h1⟩
    have hle : (i : ℤ) ≤ max ((n : ℤ) - 1) 1 := le_max_of_le_left (by omega)
    calc (i : ℤ) * total ≤ max ((n : ℤ) - 1) 1 * total := by gcongr
      _ = total * max ((n : ℤ) - 1) 1 := mul_comm _ _
  cases bucket with
  | dailyLimit =>
    unfold offsetMs
    dsimp only
    split <;> omega
  | _ => exact hspread

theorem timestampsFrom_succeeds {start : DateTime} {total reach : ℤ} {n : ℕ}
    (htotal : 0 ≤ total) (hreach : max total (18 * 86400000 + n * 3600000) ≤ reach)
    (hroom : start.micros + (reach + 1) * 1000 < Calendar.millis * 1000) {buckets : List Bucket}
    {i k : ℕ} (hi : i + buckets.length ≤ n) (hk : k ≤ i) :
    ∃ out, timestampsFrom start total n buckets i k = .ok out
      ∧ out.map Prod.snd = buckets ∧ ∀ p ∈ out, p.1.micros + 1000 < Calendar.millis * 1000 := by
  induction buckets generalizing i k with
  | nil => exact ⟨[], rfl, rfl, fun p hp => by cases hp⟩
  | cons bucket buckets ih =>
    rw [List.length_cons] at hi
    obtain ⟨h0, hle⟩ := offsetMs_mem (i := i) (by omega) hk htotal hreach bucket
    obtain ⟨out, hout, hbuckets, hall⟩ := @ih (i + 1)
      (if bucket = .dailyLimit then k + 1 else k) (by omega) (by split <;> omega)
    have hin : 0 ≤ start.micros + offsetMs total n i k bucket * 1000
        ∧ start.micros + offsetMs total n i k bucket * 1000 < Calendar.millis * 1000 := by
      constructor <;> omega
    obtain ⟨t, ht, hmicros⟩ := addMs_ok hin
    refine ⟨(t, bucket) :: out, by rw [timestampsFrom, ht, ok_bind, hout]; rfl, ?_, ?_⟩
    · rw [List.map_cons, hbuckets]
    · refine List.forall_mem_cons.mpr ⟨?_, hall⟩
      dsimp only
      omega

/-- **The places assigned**, in order of time, as many in each bucket as the
scenario asks for. -/
structure Assigned (sc : Scenario) (pairs : List (DateTime × Bucket)) : Prop where
  ordered : pairs.Pairwise fun p q => p.1.micros ≤ q.1.micros
  counts : ∀ b, (pairs.map Prod.snd).count b = (sc.buckets b).toNat
  room : sc.WellFormed → ∀ p ∈ pairs, p.1.micros + 1000 < Calendar.millis * 1000

theorem timestampsFrom_buckets {start : DateTime} {total : ℤ} {n : ℕ} {buckets : List Bucket}
    {i k : ℕ} {out : List (DateTime × Bucket)}
    (h : timestampsFrom start total n buckets i k = .ok out) : out.map Prod.snd = buckets := by
  induction buckets generalizing i k out with
  | nil =>
    obtain rfl := Except.ok.inj h
    rfl
  | cons bucket buckets ih =>
    obtain ⟨t, -, h⟩ := bind_eq_ok_iff.mp h
    obtain ⟨rest, hrest, h⟩ := bind_eq_ok_iff.mp h
    obtain rfl := Except.ok.inj h
    rw [List.map_cons, ih hrest]

/-- The buckets, each as often as it is asked for. -/
theorem yields_buildBucketAssignments :
    (liftM (buildBucketAssignments sc) : Script _).Yields (Unmakable sc) fun buckets =>
      (∀ b, buckets.count b = (sc.buckets b).toNat) ∧ buckets.length = sc.count := by
  rw [Prog.lift_eq, Prog.yields_done]
  unfold buildBucketAssignments
  dsimp only
  split
  · next hne =>
    intro hsc
    refine hne (Eq.trans ?_ hsc.count)
    rw [List.length_flatMap]
    simp only [List.length_replicate]
  · next heq =>
    refine ⟨fun b => ?_, not_not.mp heq⟩
    rw [List.count_flatMap]
    cases b <;> simp [bucketOrder, List.count_replicate]

theorem yields_assignTimestamps {buckets : List Bucket}
    (hcounts : ∀ b, buckets.count b = (sc.buckets b).toNat) (hlength : buckets.length = sc.count) :
    (liftM (assignTimestamps sc buckets) : Script _).Yields (Unmakable sc) (Assigned sc) := by
  rw [Prog.lift_eq, Prog.yields_done]
  unfold assignTimestamps
  dsimp only
  have hmake : sc.WellFormed → ∃ out, timestampsFrom sc.start
      (totalMs (sc.finish.micros - sc.start.micros)) buckets.length buckets 0 0 = .ok out
        ∧ out.map Prod.snd = buckets ∧ ∀ p ∈ out, p.1.micros + 1000 < Calendar.millis * 1000 := by
    intro hsc
    obtain ⟨htotal, hroom⟩ := hsc.window
    refine timestampsFrom_succeeds htotal (le_of_eq ?_) hroom (by omega) (Nat.le_refl 0)
    rw [hlength, Scenario.reach]
  cases hout : timestampsFrom sc.start (totalMs (sc.finish.micros - sc.start.micros))
    buckets.length buckets 0 0 with
  | error e =>
    intro hsc
    obtain ⟨out, hok, -⟩ := hmake hsc
    cases hout.symm.trans hok
  | ok out =>
    have hperm := List.perm_insertionSort (fun p q : DateTime × Bucket => p.1.micros ≤ q.1.micros) out
    have : Std.Total fun p q : DateTime × Bucket => p.1.micros ≤ q.1.micros :=
      ⟨fun p q => Nat.le_total _ _⟩
    have : IsTrans (DateTime × Bucket) fun p q => p.1.micros ≤ q.1.micros :=
      ⟨fun _ _ _ => Nat.le_trans⟩
    refine ⟨List.pairwise_insertionSort _ out, fun b => ?_, fun hsc p hp => ?_⟩
    · rw [(hperm.map Prod.snd).count_eq, timestampsFrom_buckets hout, hcounts]
    · obtain ⟨out', hok, -, hroom⟩ := hmake hsc
      obtain rfl := Except.ok.inj (hout.symm.trans hok)
      exact hroom p (hperm.mem_iff.mp hp)

/-! ## Chains -/

/-- A receipt that is a member of a chain. -/
structure InChain (r link : PyDict) (chainId : PyStr) (depth : ℕ) (agent : PyStr) : Prop where
  chain : chainOf r = .ok (.obj link)
  chainId_eq : get? (lit "chain_id") link = some (.str chainId)
  depth_eq : get? (lit "chain_depth") link = some (.num (.int depth))
  agent_eq : get? (lit "originating_agent") link = some (.str agent)

/-- **What comes after a receipt**: one in no chain, the first of a chain,
its own agent's, or a link to the one before. -/
inductive Follows (prev : Option PyDict) (r : PyDict) : Prop where
  | apart (h : chainOf r = .ok .null)
  | root {link : PyDict} {chainId agent : PyStr} (h : InChain r link chainId 0 agent)
    (hagent : get? (lit "agent_id") r = some (.str agent))
    (hparent : get? (lit "parent_receipt_id") link = none)
  | link {p link link' : PyDict} {chainId agent receiptId : PyStr} {depth : ℕ} (hprev : prev = some p)
    (h : InChain r link chainId (depth + 1) agent) (hp : InChain p link' chainId depth agent)
    (hdepth : depth < 2) (hid : get? (lit "receipt_id") p = some (.str receiptId))
    (hparent : get? (lit "parent_receipt_id") link = some (.str receiptId))

/-- Each receipt follows the one before. -/
def Linked : Option PyDict → List PyDict → Prop
  | _, [] => True
  | prev, r :: rs => Follows prev r ∧ Linked (some r) rs

/-- The chain carried is that of the last receipt. -/
def Carries (prev : Option PyDict) (chain : Option Chain) : Prop :=
  ∀ c ∈ chain, ∃ p link depth, prev = some p ∧ c.depth = depth + 1
    ∧ get? (lit "receipt_id") p = some (.str c.parentReceiptId)
    ∧ InChain p link c.chainId depth c.originatingAgent

theorem inChain_linkDict {r : PyDict} {c : Chain} (h : chainOf r = .ok (.obj (linkDict c))) :
    InChain r (linkDict c) c.chainId c.depth c.originatingAgent :=
  ⟨h, rfl, rfl, rfl⟩

theorem inChain_rootDict {r : PyDict} {chainId agent : PyStr}
    (h : chainOf r = .ok (.obj (rootDict chainId agent))) :
    InChain r (rootDict chainId agent) chainId 0 agent :=
  ⟨h, rfl, rfl, rfl⟩

/-- **One receipt more.** -/
theorem follows_of_places {prev : Option PyDict} {next : Option Chain} {r : PyDict} {v : PyVal}
    {receiptId agentId : PyStr} (hprev : Carries prev chain) (hchain : chainOf r = .ok v)
    (hid : get? (lit "receipt_id") r = some (.str receiptId))
    (hagent : get? (lit "agent_id") r = some (.str agentId))
    (h : Places receiptId agentId chain v next) : Follows prev r ∧ Carries (some r) next := by
  cases h with
  | apart => exact ⟨.apart hchain, fun c hc => by cases hc⟩
  | chained h =>
    cases h with
    | @link c hc hdepth =>
      obtain ⟨p, link, depth, hp, hcdepth, hpid, hin⟩ := hprev c hc
      have hr := inChain_linkDict hchain
      refine ⟨.link hp (hcdepth ▸ hr) hin (by omega) hpid rfl, ?_⟩
      rintro _ ⟨⟩
      exact ⟨r, _, c.depth, rfl, rfl, hid, hr⟩
    | root =>
      have hr := inChain_rootDict hchain
      refine ⟨.root hr hagent rfl, ?_⟩
      rintro _ ⟨⟩
      exact ⟨r, _, 0, rfl, rfl, hid, hr⟩

/-! ## The loop -/

section

variable [Ucd]

/-- A receipt signed by one of the keys. -/
def Signed (crypto : Crypto) (sc : Scenario) (keys : List (PyStr × (Bytes × KeyEntry)))
    (p : DateTime × Bucket) (r : PyDict) : Prop :=
  ∃ payload sk entry kid receiptId chain next, get? kid keys = some (sk, entry)
    ∧ Drawn sc p.1 receiptId chain next payload
    ∧ signReceipt crypto payload (.privateKey sk) kid = .ok r

/-- What is drawn can be signed, where the scenario is well formed. -/
theorem yields_signReceipt {keys : List (PyStr × (Bytes × KeyEntry))} (hkeys : Keyring crypto sc keys)
    {kid receiptId : PyStr} {sk : Bytes} {entry : KeyEntry} {payload : PyDict} {t : DateTime}
    {next : Option Chain} (hkid : get? kid keys = some (sk, entry))
    (hpayload : Drawn sc t receiptId chain next payload) :
    (liftM (ofPy (signReceipt crypto payload (.privateKey sk) kid)) : Script _).Yields
      (Unmakable sc) fun r => signReceipt crypto payload (.privateKey sk) kid = .ok r := by
  refine yields_ofPy (fun r hr => hr) fun e he hsc => ?_
  obtain ⟨bytes, hbytes⟩ := (hpayload.sound.2 hsc).canonicalize
  have hne : kid ≠ [] := by
    obtain ⟨-, hkids⟩ := hkeys.entries hsc
    have hmem : kid ∈ names keys := mem_names.mpr ⟨_, mem_of_get? hkid⟩
    rw [hkids] at hmem
    obtain ⟨entry, hentry, rfl⟩ := List.mem_map.mp hmem
    exact hsc.kids.2 entry hentry
  have hmeta : ∀ k ∈ signedKeys, k ∉ metadataKeys := by decide
  have hok : Succeeds (signReceipt crypto payload (.privateKey sk) kid) :=
    ⟨_, signReceipt_eq_ok_iff.mpr ⟨hne, fun k hk => hmeta k (hpayload.signed k hk), hpayload.signed,
      sk, bytes, rfl, hbytes, rfl⟩⟩
  obtain ⟨r, hr⟩ := hok
  cases he.symm.trans hr

/-- Signing leaves what is signed. -/
theorem get?_signed {payload r : PyDict} {sk : Bytes} {kid k : PyStr}
    (h : signReceipt crypto payload (.privateKey sk) kid = .ok r)
    (hk : k ∈ signedRequired ∨ k ∈ payloadKeysOptional) : get? k r = get? k payload := by
  obtain ⟨-, -, -, -, bytes, -, -, rfl⟩ := signReceipt_eq_ok_iff.mp h
  exact get?_withMetadata_signed _ _ _ _ hk

/-- **The receipts**, each signed, and following the one before. -/
theorem yields_receiptsFrom {keys : List (PyStr × (Bytes × KeyEntry))} (hkeys : Keyring crypto sc keys)
    {pairs : List (DateTime × Bucket)} (hchain : ∀ c ∈ chain, c.Fine sc)
    (hroom : sc.WellFormed → ∀ p ∈ pairs, p.1.micros + 1000 < Calendar.millis * 1000) :
    (receiptsFrom crypto sc keys pairs chain).Yields (Unmakable sc) fun rs =>
      List.Forall₂ (Signed crypto sc keys) pairs rs
        ∧ ∀ prev, Carries prev chain → Linked prev rs := by
  induction pairs generalizing chain with
  | nil => exact Prog.yields_done.mpr ⟨.nil, fun _ _ => trivial⟩
  | cons p pairs ih =>
    obtain ⟨t, bucket⟩ := p
    unfold receiptsFrom
    have hchoice : (choices (names keys) (keys.map fun key => key.2.2.share)).Yields
        (Unmakable sc) (· ∈ names keys) := by
      refine yields_choices (by simp [names]) fun hbad e hsc => hbad ?_
      have hshares := congrArg (List.map KeyEntry.share) (hkeys.entries hsc).1
      rw [List.map_map] at hshares
      exact (show keys.map (fun key => key.2.2.share) = _ from hshares) ▸ hsc.weights
    refine hchoice.bind fun kid hkid => ?_
    refine yields_deterministicUuidV4.bind fun receiptId hid => ?_
    have hid : Textual sc receiptId := fun _ => hid
    refine (yields_buildReceiptPayload bucket hid hchain fun hsc => hroom hsc _
      List.mem_cons_self).bind ?_
    rintro ⟨payload, next⟩ hpayload
    dsimp only at hpayload ⊢
    split
    · next hnone => exact absurd hkid (get?_eq_none_iff.mp hnone)
    · next sk entry hsome =>
      refine (yields_signReceipt hkeys hsome hpayload).bind fun r hr => ?_
      refine (ih hpayload.fine fun hsc p hp => hroom hsc p (List.mem_cons_of_mem _ hp)).bind ?_
      rintro rs ⟨hrs, hlinked⟩
      refine Prog.yields_done.mpr ⟨.cons ⟨payload, sk, entry, kid, receiptId, chain, next, hsome,
        hpayload, hr⟩ hrs, fun prev hprev => ?_⟩
      obtain ⟨agentId, v, hagent, hv, hplaces⟩ := hpayload.place
      have hget (k : PyStr) (hk : k ∈ signedRequired ∨ k ∈ payloadKeysOptional) :
          get? k r = get? k payload := get?_signed hr hk
      have hstep := follows_of_places hprev
        ((chainOf_congr (hget _ (Or.inr (by decide)))).trans hv)
        ((hget _ (Or.inl (by decide))).trans hpayload.receiptId_eq)
        ((hget _ (Or.inl (by decide))).trans hagent) hplaces
      exact ⟨hstep.1, hlinked (some r) hstep.2⟩

/-- What a run that returns has made. -/
structure Made (crypto : Crypto) (sc : Scenario) (keys : List (PyStr × (Bytes × KeyEntry)))
    (pairs : List (DateTime × Bucket)) (out : List PyDict × PyDict) : Prop where
  keyring : Keyring crypto sc keys
  assigned : Assigned sc pairs
  signed : List.Forall₂ (Signed crypto sc keys) pairs out.1
  linked : Linked none out.1
  jwks : out.2 = buildJwks (keys.map fun key => (crypto.publicKey key.2.1, key.1))

/-- **Every run** makes that, or is of a scenario that is not well formed. -/
theorem yields_generate : (generate crypto sc).Yields (Unmakable sc) fun out =>
    ∃ keys pairs, Made crypto sc keys pairs out := by
  unfold generate
  refine yields_makeKeys.bind fun keys hkeys => ?_
  refine yields_buildBucketAssignments.bind ?_
  rintro buckets ⟨hcounts, hlength⟩
  refine (yields_assignTimestamps hcounts hlength).bind fun pairs hpairs => ?_
  refine (yields_receiptsFrom hkeys (fun c hc => by cases hc) hpairs.room).bind ?_
  rintro receipts ⟨hsigned, hlinked⟩
  refine Prog.yields_done.mpr ⟨keys, pairs, hkeys, hpairs, hsigned, ?_, rfl⟩
  exact hlinked none fun c hc => by cases hc

/-! ## The corpus -/

/-- A receipt of a corpus verifies under its JWKS. -/
theorem Made.verifies (hcrypto : Standard crypto) {keys : List (PyStr × (Bytes × KeyEntry))}
    {pairs : List (DateTime × Bucket)} {out : List PyDict × PyDict}
    (h : Made crypto sc keys pairs out) {p : DateTime × Bucket} {r : PyDict}
    (hr : Signed crypto sc keys p r) :
    ∃ kid hash, verifyReceipt crypto r out.2
      = .ok { valid := true, error := none, keyId := .str kid, canonicalHash := hash } := by
  obtain ⟨payload, sk, entry, kid, receiptId, chain, next, hkid, hpayload, hsign⟩ := hr
  have hmem := mem_of_get? hkid
  obtain ⟨bs, hsk⟩ := h.keyring.derived _ hmem
  have hlength : sk.length = 32 := (congrArg List.length hsk).trans (hcrypto.sha256_length bs)
  obtain ⟨kp, hkp⟩ := hcrypto.keyPair sk hlength
  have hfirst : FirstKey out.2 kid (publicKeyToJwk (crypto.publicKey kp.seed) kid) := by
    rw [h.jwks, hkp]
    refine firstKey_buildJwks ?_ (List.mem_map_of_mem hmem)
    rw [List.map_map]
    exact h.keyring.nodup
  have hseed : (PrivateKeyInput.privateKey sk).seed = kp.seed := hkp.symm
  obtain ⟨hash, -, hverify⟩ := verifyReceipt_signed kp hseed hpayload.sound.1 hpayload.required
    hsign hfirst
  exact ⟨kid, hash, hverify⟩

/-- **The corpus verifies.** However the draws come out, the generator
returns a receipt for each place assigned, in the order of their times, and
each verifies under the JWKS returned with them; or it raises, and the
scenario is not well formed. -/
theorem corpus_verifies (hcrypto : Standard crypto) :
    (generate crypto sc).Yields (Unmakable sc) fun out =>
      ∃ pairs, Assigned sc pairs ∧ List.Forall₂ (fun p r =>
        get? (lit "timestamp") r = some (.str (toIsoZ p.1))
          ∧ ∃ kid hash, verifyReceipt crypto r out.2
            = .ok { valid := true, error := none, keyId := .str kid, canonicalHash := hash })
        pairs out.1 := by
  refine yields_generate.imp ?_
  rintro out ⟨keys, pairs, hmade⟩
  refine ⟨pairs, hmade.assigned, hmade.signed.imp fun p r hr => ⟨?_, hmade.verifies hcrypto hr⟩⟩
  obtain ⟨payload, sk, entry, kid, receiptId, chain, next, -, hpayload, hsign⟩ := hr
  exact (get?_signed hsign (Or.inl (by decide))).trans hpayload.timestamp

end

section Sample

attribute [local instance] Ucd.allPrintable

namespace Sample

/-- One receipt, on a day. -/
def scenario : Scenario where
  seed := 1
  workspaceId := lit "w"
  count := 1
  start := ⟨63913449600000000, by decide +kernel⟩
  finish := ⟨63913536000000000, by decide +kernel⟩
  keys := [⟨lit "k1", .fin 1⟩]
  issuer := lit "i"
  agents := [lit "a"]
  toolsAllowed := [lit "t"]
  toolsOffList := [lit "o"]
  toolDebug := lit "d"
  termsUrlsAllowed := [lit "u"]
  termsUrlOffList := lit "x"
  termsUrlBlocked := lit "b"
  buckets b := if b = .allow then 1 else 0
  amounts := ⟨6, 9, 7, 8, 3, 4, 5, 2⟩

/-- Draws that all come out in the middle or first. -/
def draws : (o : Draw) → o.Ans
  | .random => ⟨1 / 2, by norm_num⟩
  | .randbelow _ => 0
  | .randbytes n => ⟨List.replicate n 0, List.length_replicate⟩
  | .choices _ => 0

/-- The hash its key is derived by. -/
def keySeed : Bytes :=
  [38, 198, 69, 228, 43, 103, 48, 236, 126, 70, 37, 79, 183, 43, 225, 248, 10, 39, 161, 249, 58,
    218, 17, 96, 195, 188, 231, 47, 14, 233, 7, 142]

def publicKey : Bytes :=
  [179, 58, 60, 125, 252, 241, 131, 180, 61, 120, 18, 59, 53, 35, 71, 204, 249, 5, 234, 72, 199,
    219, 83, 92, 226, 125, 136, 198, 170, 85, 43, 220]

/-- The hash of the receipt drawn. -/
def digest : Bytes :=
  [179, 13, 119, 225, 1, 89, 143, 107, 94, 35, 199, 78, 63, 75, 195, 180, 92, 209, 236, 224, 250,
    133, 211, 174, 194, 148, 200, 210, 59, 56, 247, 110]

def signature : Bytes :=
  [91, 131, 7, 184, 212, 30, 120, 122, 102, 224, 39, 79, 235, 152, 184, 117, 103, 173, 101, 230,
    130, 32, 123, 146, 186, 228, 157, 205, 227, 120, 122, 24, 212, 176, 0, 228, 201, 224, 246, 223,
    183, 103, 7, 33, 111, 129, 110, 41, 116, 135, 60, 47, 25, 80, 71, 223, 42, 240, 77, 156, 210,
    199, 183, 7]

/-- SHA-256 and Ed25519 where the corpus uses them. -/
def primitives : Crypto where
  sha256 bs := if (lit "openterms-corpus-key-derivation-v1" : Bytes).isPrefixOf bs then keySeed
    else digest
  publicKey _ := publicKey
  sign _ _ := signature
  verify key _ sig := decide (key = publicKey ∧ sig = signature)

theorem standard : Standard primitives where
  sha256_length bs := by
    simp only [primitives]
    split <;> rfl
  keyPair seed hseed := ⟨⟨seed, hseed, rfl, fun _ => rfl, fun _ => by simp [primitives]⟩, rfl⟩

theorem wellFormed : scenario.WellFormed where
  seed := by decide
  count := rfl
  window := by decide +kernel
  kids := by decide
  weights := ⟨.fin 1, [], rfl, 1, by decide +kernel, by norm_num⟩
  pools := by decide
  ranges := by decide
  texts s hs := by
    have htexts : scenario.texts = ["w", "i", "d", "x", "b", "k1", "a", "t", "o", "u"].map lit := rfl
    have hascii : ∀ t ∈ ["w", "i", "d", "x", "b", "k1", "a", "t", "o", "u"], Utf16.Ascii t := by
      decide
    obtain ⟨t, ht, rfl⟩ := List.mem_map.mp (htexts ▸ hs)
    exact noSurrogate_ascii (Utf16.lit_ascii (hascii t ht))

end Sample

/-- The sample corpus has a receipt, and it verifies. -/
theorem corpus_verifies_sample :
    ∃ receipts jwks, ((generate Sample.primitives Sample.scenario).play Sample.draws).2
        = .ok (receipts, jwks) ∧ receipts ≠ []
      ∧ ∀ r ∈ receipts, ∃ kid hash, verifyReceipt Sample.primitives r jwks
        = .ok { valid := true, error := none, keyId := .str kid, canonicalHash := hash } := by
  have hrun := Prog.runs_play Sample.draws (generate Sample.primitives Sample.scenario)
  have hends := corpus_verifies Sample.standard _ _ hrun
  cases hout : ((generate Sample.primitives Sample.scenario).play Sample.draws).2 with
  | error e =>
    rw [hout] at hends
    exact absurd Sample.wellFormed hends
  | ok out =>
    rw [hout] at hends
    obtain ⟨pairs, hassigned, hall⟩ := hends
    refine ⟨out.1, out.2, rfl, fun hnil => ?_, fun r hr => ?_⟩
    · have hcount := hassigned.counts .allow
      rw [hnil] at hall
      cases hall
      cases hcount
    · obtain ⟨i, hi, rfl⟩ := List.getElem_of_mem hr
      exact (hall.get (hall.length_eq ▸ hi) hi).2

end Sample

section

variable [Ucd]

/-! ## The chains of a corpus -/

omit [Ucd] in
/-- A receipt has one place in one chain. -/
theorem InChain.unique {r link link' : PyDict} {chainId chainId' agent agent' : PyStr}
    {depth depth' : ℕ} (h : InChain r link chainId depth agent)
    (h' : InChain r link' chainId' depth' agent') :
    link = link' ∧ chainId = chainId' ∧ depth = depth' ∧ agent = agent' := by
  obtain ⟨hchain, hid, hdepth, hagent⟩ := h
  obtain ⟨hchain', hid', hdepth', hagent'⟩ := h'
  obtain rfl : link = link' := Json.obj.inj (Except.ok.inj (hchain.symm.trans hchain'))
  have hint := PyNum.int.inj (Json.num.inj (Option.some.inj (hdepth.symm.trans hdepth')))
  exact ⟨rfl, Json.str.inj (Option.some.inj (hid.symm.trans hid')), Int.ofNat.inj hint,
    Json.str.inj (Option.some.inj (hagent.symm.trans hagent'))⟩

omit [Ucd] in
theorem Linked.get {prev : Option PyDict} {rs : List PyDict} (h : Linked prev rs) {i : ℕ}
    {r : PyDict} (hr : rs[i]? = some r) :
    Follows (match i with
      | 0 => prev
      | i + 1 => rs[i]?) r := by
  induction rs generalizing prev i with
  | nil => cases hr
  | cons r' rs ih =>
    cases i with
    | zero =>
      obtain rfl := Option.some.inj hr
      exact h.1
    | succ i =>
      have hfollows := ih h.2 hr
      cases i with
      | zero => exact hfollows
      | succ i => exact hfollows

/-- **A chain up to a place**: its first receipt, and after it, one after
the other, links each to the one before. -/
structure Consecutive (rs : List PyDict) (i : ℕ) (chainId : PyStr) (depth : ℕ) (agent : PyStr) :
    Prop where
  depth_le : depth ≤ 2 ∧ depth ≤ i
  first : ∃ r link, rs[i - depth]? = some r ∧ InChain r link chainId 0 agent
    ∧ get? (lit "agent_id") r = some (.str agent)
    ∧ get? (lit "parent_receipt_id") link = none
  links : ∀ j < depth, ∃ p r link receiptId, rs[i - depth + j]? = some p
    ∧ rs[i - depth + j + 1]? = some r ∧ InChain r link chainId (j + 1) agent
    ∧ get? (lit "receipt_id") p = some (.str receiptId)
    ∧ get? (lit "parent_receipt_id") link = some (.str receiptId)

omit [Ucd] in
/-- A chain one receipt longer. -/
theorem Consecutive.succ {rs : List PyDict} {i depth : ℕ} {chainId agent receiptId : PyStr}
    {p r link : PyDict} (h : Consecutive rs i chainId depth agent) (hdepth : depth < 2)
    (hp : rs[i]? = some p) (hr : rs[i + 1]? = some r)
    (hlink : InChain r link chainId (depth + 1) agent)
    (hid : get? (lit "receipt_id") p = some (.str receiptId))
    (hparent : get? (lit "parent_receipt_id") link = some (.str receiptId)) :
    Consecutive rs (i + 1) chainId (depth + 1) agent := by
  obtain ⟨⟨-, hle⟩, hfirst, hlinks⟩ := h
  have hstart : i + 1 - (depth + 1) = i - depth := by omega
  refine ⟨⟨by omega, by omega⟩, hstart ▸ hfirst, fun j hj => ?_⟩
  rw [hstart]
  rcases Nat.lt_succ_iff_lt_or_eq.mp hj with hlt | rfl
  · exact hlinks j hlt
  · have hi : i - j + j = i := by omega
    rw [hi]
    exact ⟨p, r, link, receiptId, hp, hr, hlink, hid, hparent⟩

omit [Ucd] in
/-- Where each receipt follows the one before, a chain is without gaps. -/
theorem consecutive_of_linked {rs : List PyDict} (h : Linked none rs) {i : ℕ} {r link : PyDict}
    {chainId agent : PyStr} {depth : ℕ} (hr : rs[i]? = some r)
    (hin : InChain r link chainId depth agent) : Consecutive rs i chainId depth agent := by
  induction i generalizing r link depth with
  | zero =>
    cases h.get hr with
    | apart hnull => cases hnull.symm.trans hin.chain
    | root hroot hagent hparent =>
      obtain ⟨rfl, rfl, rfl, rfl⟩ := hin.unique hroot
      exact ⟨⟨by omega, by omega⟩, ⟨r, _, hr, hroot, hagent, hparent⟩,
        fun j hj => absurd hj (Nat.not_lt_zero j)⟩
    | link hprev => cases hprev
  | succ i ih =>
    cases h.get hr with
    | apart hnull => cases hnull.symm.trans hin.chain
    | root hroot hagent hparent =>
      obtain ⟨rfl, rfl, rfl, rfl⟩ := hin.unique hroot
      exact ⟨⟨by omega, by omega⟩, ⟨r, _, hr, hroot, hagent, hparent⟩,
        fun j hj => absurd hj (Nat.not_lt_zero j)⟩
    | link hprev hlink hp hdepth hid hparent =>
      obtain ⟨rfl, rfl, rfl, rfl⟩ := hin.unique hlink
      exact (ih hprev hp).succ hdepth hprev hr hlink hid hparent

/-- **Chains are consecutive.** In whatever the generator returns, a receipt
is in no chain or the last so far of one that began at most two receipts
before, with a receipt of the agent its links call the originating one, and
in which every receipt since is a link to the one before it. -/
theorem chains_consecutive : (generate crypto sc).Yields (fun _ => True) fun out =>
    ∀ i r, out.1[i]? = some r → chainOf r = .ok .null
      ∨ ∃ link chainId depth agent, InChain r link chainId depth agent
        ∧ Consecutive out.1 i chainId depth agent := by
  refine yields_generate.mono (fun _ _ => trivial) ?_
  rintro out ⟨keys, pairs, hmade⟩ i r hr
  have hconsecutive := @consecutive_of_linked _ hmade.linked i r
  cases hmade.linked.get hr with
  | apart hnull => exact Or.inl hnull
  | root hroot => exact Or.inr ⟨_, _, _, _, hroot, hconsecutive hr hroot⟩
  | link _ hlink => exact Or.inr ⟨_, _, _, _, hlink, hconsecutive hr hlink⟩

/-! ## The log of a corpus -/

omit [Ucd] in
theorem toIsoZ_lt {t u : DateTime} (h : t.addMs 1 = .ok u) : toIsoZ t < toIsoZ u := by
  have hu := u.inRange
  have hmicros : (u.micros : ℤ) = t.micros + 1000 := by
    unfold DateTime.addMs at h
    split at h
    · next hrange =>
      obtain rfl := Except.ok.inj h
      exact Int.toNat_of_nonneg hrange.1
    · cases h
  exact Calendar.isoText_lt (by omega) (by omega)

/-- A receipt of a corpus is one of a log, and made after its time. -/
theorem logReceipt_of_signed {keys : List (PyStr × (Bytes × KeyEntry))} {p : DateTime × Bucket}
    {r : PyDict} (h : Signed crypto sc keys p r) :
    ∃ l : LogReceipt, l.receipt = r ∧ l.timestamp = toIsoZ p.1
      ∧ ∃ created, get? (lit "created_at") r = some (.str created) ∧ l.timestamp < created := by
  obtain ⟨payload, sk, entry, kid, receiptId, chain, next, -, hpayload, hsign⟩ := h
  have hget (k : PyStr) (hk : k ∈ signedRequired) : get? k r = get? k payload :=
    get?_signed hsign (Or.inl hk)
  have htimestamp := (hget (lit "timestamp") (by decide)).trans hpayload.timestamp
  obtain ⟨u, hu, hcreated⟩ := hpayload.created
  obtain ⟨z, hamount⟩ := hpayload.amount
  obtain ⟨-, -, -, _, bytes, -, -, hr⟩ := signReceipt_eq_ok_iff.mp hsign
  have hhash : get? (lit "canonical_hash") r = some (.str (hex (crypto.sha256 bytes))) := by
    rw [hr, get?_withMetadata]
    rfl
  have htext := Calendar.isoText_eq (p.1.micros / 1000)
  refine ⟨⟨r, _, _, z, _, Calendar.length_dateText _, htimestamp.trans (congrArg _ ?_),
    (hget _ (by decide)).trans hamount, hhash⟩, rfl, htext.symm, toIsoZ u,
    (hget _ (by decide)).trans hcreated, ?_⟩
  · exact congrArg Json.str htext
  · exact lt_of_eq_of_lt htext.symm (toIsoZ_lt hu)

end

end Corpus

end Py

end OpenTerms
