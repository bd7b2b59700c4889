import OpenTerms.Common.Double
import OpenTerms.Common.Program
import OpenTerms.Common.Utf8
import OpenTerms.Py.CanonicalText

/-!
# `scripts/generate_corpus.py`: what is drawn

The script draws everything it chooses from one `random.Random`. What is
drawn is left open here: a draw is an operation, answered by anything the
generator can answer, so what holds however the draws come out holds for
every seed. The checks `random` makes before it draws, that a range is not
empty and that weights have a positive and finite sum, are in the program.
-/

namespace OpenTerms

namespace Py

namespace Corpus

/-- What the script raises: an exception of the SDK or one of its own, or
one of the interpreter's, which carries no text here. -/
inductive CorpusErr where
  | py (e : PyErr)
  | emptyRange
  | badWeights
  | indexError
  | overflowError
  deriving DecidableEq

/-- One draw of `random.Random`. -/
inductive Draw where
  /-- A float from 0 to below 1. -/
  | random
  /-- An integer from 0 to `n`. -/
  | randbelow (n : ℕ)
  /-- So many bytes. -/
  | randbytes (n : ℕ)
  /-- A place among `n + 1`. -/
  | choices (n : ℕ)

/-- What a draw can come out as. -/
abbrev Draw.Ans : Draw → Type
  | .random => {x : ℚ // 0 ≤ x ∧ x < 1}
  | .randbelow n => Fin (n + 1)
  | .randbytes n => {bs : Bytes // bs.length = n}
  | .choices n => Fin (n + 1)

/-- A part of the script. -/
abbrev Script (α : Type) : Type := Prog Draw Draw.Ans CorpusErr α

/-- What the SDK raises, the script does not catch. -/
def ofPy {α : Type} : Except PyErr α → Except CorpusErr α
  | .ok a => .ok a
  | .error e => .error (.py e)

/-- `rng.random() < p`, for a literal of so many hundredths. -/
def chance (hundredths : ℕ) : Script Bool := do
  let x ← Prog.op Draw.random
  pure ((Double.fin x.1).lt (Double.ofRatio false hundredths 100))

/-- `rng.randrange(start, stop)`. -/
def randrange (start stop : ℤ) : Script ℤ :=
  if start < stop then do
    let d ← Prog.op (Draw.randbelow (stop - start - 1).toNat)
    pure (start + d.val)
  else throw .emptyRange

/-- `pick`. -/
def pick (values : List PyStr) : Script PyStr := do
  let i ← randrange 0 values.length
  match values[i.toNat]? with
  | some v => pure v
  | none => throw .indexError

/-- `rng.choices(population, weights=weights, k=1)[0]`. -/
def choices (population : List PyStr) (weights : List Double) : Script PyStr :=
  match weights with
  | [] => throw .indexError
  | w :: ws =>
    match ((ws.foldl Double.add w).add (.fin 0)).rat? with
    | none => throw .badWeights
    | some total =>
      if 0 < total then do
        let i ← Prog.op (Draw.choices (population.length - 1))
        match population[i.val]? with
        | some v => pure v
        | none => throw .indexError
      else throw .badWeights

/-- `deterministic_hex`. -/
def deterministicHex (nBytes : ℕ) : Script PyStr := do
  let bs ← Prog.op (Draw.randbytes nBytes)
  pure (hex bs.1)

/-- `str(uuid.UUID(bytes=b))`. -/
def uuidText (b : Bytes) : PyStr :=
  let h : PyStr := hex b
  h.take 8 ++ chr '-' :: ((h.drop 8).take 4 ++ chr '-' :: ((h.drop 12).take 4
    ++ chr '-' :: ((h.drop 16).take 4 ++ chr '-' :: h.drop 20)))

/-- `deterministic_uuid_v4`. -/
def deterministicUuidV4 : Script PyStr := do
  let b ← Prog.op (Draw.randbytes 16)
  let b := b.1.modify 6 fun x => Fin.ofNat 0x100 (x.val &&& 0x0F ||| 0x40)
  let b := b.modify 8 fun x => Fin.ofNat 0x100 (x.val &&& 0x3F ||| 0x80)
  pure (uuidText b)

/-! ## What comes out -/

variable {E : CorpusErr → Prop}

/-- A step of the SDK's in the script. -/
theorem yields_ofPy {α : Type} {x : Except PyErr α} {Q : α → Prop} (hok : ∀ a, x = .ok a → Q a)
    (herror : ∀ e, x = .error e → E (.py e)) :
    (liftM (ofPy x) : Script α).Yields E Q := by
  cases x with
  | ok a => exact Prog.yields_done.mpr (hok a rfl)
  | error e => exact Prog.yields_done.mpr (herror e rfl)

theorem yields_chance (hundredths : ℕ) : (chance hundredths).Yields E fun _ => True := by
  refine Prog.Yields.perform fun x => ?_
  exact Prog.yields_done.mpr trivial

theorem yields_randrange {start stop : ℤ} (h : stop ≤ start → E .emptyRange) :
    (randrange start stop).Yields E fun z => start ≤ z ∧ z < stop := by
  unfold randrange
  split
  · refine Prog.Yields.perform fun d => Prog.yields_done.mpr ?_
    show start ≤ start + (d.val : ℤ) ∧ start + (d.val : ℤ) < stop
    have := d.isLt
    omega
  · exact Prog.yields_done.mpr (h (by omega))

theorem yields_pick {values : List PyStr} (h : values = [] → E .emptyRange) :
    (pick values).Yields E (· ∈ values) := by
  refine (yields_randrange fun hempty => h (List.length_eq_zero_iff.mp (by omega))).bind ?_
  rintro i ⟨h0, hlt⟩
  rw [List.getElem?_eq_getElem (show i.toNat < values.length by omega)]
  exact Prog.yields_done.mpr (List.getElem_mem _)

/-- Weights with a sum that `choices` takes. -/
def GoodWeights (weights : List Double) : Prop :=
  ∃ w ws, weights = w :: ws
    ∧ ∃ total ∈ ((ws.foldl Double.add w).add (.fin 0)).rat?, 0 < total

theorem yields_choices {population : List PyStr} {weights : List Double}
    (hlength : population.length = weights.length)
    (h : ¬ GoodWeights weights → ∀ e, E e) :
    (choices population weights).Yields E (· ∈ population) := by
  unfold choices
  cases weights with
  | nil =>
    refine Prog.yields_done.mpr (h ?_ _)
    rintro ⟨w, ws, hcons, -⟩
    cases hcons
  | cons w ws =>
    dsimp only
    split
    · next hnone =>
      refine Prog.yields_done.mpr (h ?_ _)
      rintro ⟨_, _, hcons, total, htotal, -⟩
      obtain ⟨rfl, rfl⟩ := List.cons.inj hcons
      rw [hnone] at htotal
      cases htotal
    · next total hsome =>
      split
      · rw [Prog.op_bind]
        refine Prog.Yields.perform fun i => ?_
        -- as many weights as there are to choose from, so not none
        have hi : i.val < population.length := by
          have := i.isLt
          rw [List.length_cons] at hlength
          omega
        rw [List.getElem?_eq_getElem hi]
        exact Prog.yields_done.mpr (List.getElem_mem _)
      · next hneg =>
        refine Prog.yields_done.mpr (h ?_ _)
        rintro ⟨_, _, hcons, total', htotal', hpos⟩
        obtain ⟨rfl, rfl⟩ := List.cons.inj hcons
        rw [hsome] at htotal'
        obtain rfl := Option.some.inj htotal'
        exact hneg hpos

theorem hex_ascii (bs : Bytes) : ∀ c ∈ (hex bs : PyStr), c.val < 0x80 := by
  refine ofChars_ascii fun c hc => ?_
  obtain ⟨b, -, hc⟩ := List.mem_flatMap.mp hc
  exact hexByteChars_lt c hc

theorem yields_deterministicHex (nBytes : ℕ) :
    (deterministicHex nBytes).Yields E NoSurrogate := by
  refine Prog.Yields.perform fun bs => ?_
  exact Prog.yields_done.mpr (noSurrogate_ascii (hex_ascii _))

theorem uuidText_ascii (b : Bytes) : ∀ c ∈ uuidText b, c.val < 0x80 := by
  have hdash : (chr '-' : CodePoint).val < 0x80 := by decide
  simp only [uuidText, List.forall_mem_append, List.forall_mem_cons]
  exact ⟨fun c hc => hex_ascii b c (List.mem_of_mem_take hc), hdash,
    fun c hc => hex_ascii b c (List.mem_of_mem_drop (List.mem_of_mem_take hc)), hdash,
    fun c hc => hex_ascii b c (List.mem_of_mem_drop (List.mem_of_mem_take hc)), hdash,
    fun c hc => hex_ascii b c (List.mem_of_mem_drop (List.mem_of_mem_take hc)), hdash,
    fun c hc => hex_ascii b c (List.mem_of_mem_drop hc)⟩

theorem yields_deterministicUuidV4 : deterministicUuidV4.Yields E NoSurrogate := by
  refine Prog.Yields.perform fun b => ?_
  exact Prog.yields_done.mpr (noSurrogate_ascii (uuidText_ascii _))

end Corpus

end Py

end OpenTerms
