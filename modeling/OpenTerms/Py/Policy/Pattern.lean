import OpenTerms.Common.GlobCost
import OpenTerms.Common.Policy
import OpenTerms.Py.Value

/-!
# `policy/pattern.py`

Paths into a receipt and the five operators of the pattern language. The
glob matcher decides the language of its pattern (`globMatch_correct`). It
is said to be linear, each character of the target being consumed at most
twice; that holds only where little is read again (`globMatch_linear_iff`).
-/

namespace OpenTerms

namespace Py

open Json

/-- The walk of `resolve_path` from a value, part after part. -/
def walkPath : List PyStr → PyVal → PyVal
  | [], cur => cur
  | part :: parts, .obj ms =>
    match get? part ms with
    | some v => walkPath parts v
    | none => .null
  | _ :: _, _ => .null

theorem walkPath_null (parts : List PyStr) : walkPath parts .null = .null := by
  cases parts <;> rfl

/-- An absent member ends a walk as a null does. -/
theorem walkPath_obj (part : PyStr) (parts : List PyStr) (ms : PyDict) :
    walkPath (part :: parts) (.obj ms) = walkPath parts (getD part ms) := by
  rw [walkPath, getD]
  cases get? part ms with
  | none => exact (walkPath_null parts).symm
  | some v => rfl

/-- `resolve_path`. -/
def resolvePath (receipt : PyDict) (path : PyStr) : PyVal :=
  if path = [] then .null else walkPath (path.splitOn (chr '.')) (.obj receipt)

/-- `_glob_match`. -/
def globMatch (pattern target : PyStr) : Bool := Glob.run (chr '*') (chr '?') pattern target

/-- It decides the language of its pattern, over code points. -/
theorem globMatch_iff (pattern target : PyStr) :
    globMatch pattern target = true ↔ target ∈ Glob.language (chr '*') (chr '?') pattern :=
  Glob.run_iff

/-- **`_glob_match` is correct.** Its loop ends by itself, and it returns
`True` exactly for the targets in the language of the pattern. -/
theorem globMatch_correct (pattern target : PyStr) :
    Glob.Ends (chr '*') (chr '?') pattern target Glob.start
        (Glob.loop (chr '*') (chr '?') pattern target (Glob.turns pattern target) Glob.start)
      ∧ (globMatch pattern target = true ↔ target ∈ Glob.language (chr '*') (chr '?') pattern) :=
  ⟨Glob.ends_loop (Glob.inv_start _ _ _ _) Glob.remaining_start, globMatch_iff pattern target⟩

/-- Two stars, and a partial match before the one that counts. -/
example : globMatch (lit "*ab*?c") (lit "aababxxc") = true := by decide

/-- **When `_glob_match` keeps to its bound**: when the characters matched
in vain after a star, and the stars reached, are no more than the two
texts have. -/
theorem globMatch_linear_iff (pattern target : PyStr) :
    (∃ k, Glob.Takes (chr '*') (chr '?') pattern target Glob.start k
        ∧ k ≤ 2 * target.length + pattern.length)
      ↔ Glob.rework (chr '*') (chr '?') pattern target ≤ target.length + pattern.length := by
  rw [Glob.exists_takes_le_iff (by omega)]
  omega

/-- Each place of a run of one character is given up at the pattern's
last: the loop takes a product. -/
theorem globMatch_takes_run {a b : CodePoint} (ha : a ≠ chr '*') (hb : b ≠ chr '*')
    (hab : b ≠ chr '?' ∧ b ≠ a) (m n : ℕ) (hn : 0 < n) :
    Glob.Takes (chr '*') (chr '?') (chr '*' :: (List.replicate m a ++ [b]))
      (List.replicate (m + n) a) Glob.start (m + n + (1 + m * n)) := by
  have hfit : Glob.fitting (chr '*') (chr '?') (chr '*' :: (List.replicate m a ++ [b]))
      (List.replicate (m + n) a) = 0 := by
    rw [show m + n = m + n - 1 + 1 by omega, List.replicate_succ, Glob.fitting,
      if_neg fun h => h.1 rfl]
  have hrework : Glob.rework (chr '*') (chr '?') (chr '*' :: (List.replicate m a ++ [b]))
      (List.replicate (m + n) a) = 1 + m * n := by
    unfold Glob.rework
    rw [hfit, List.length_replicate, if_pos ⟨by omega, rfl⟩, List.drop_zero, List.drop_succ_cons,
      List.drop_zero, Glob.setbacks_replicate ha hb hab]
  obtain ⟨k, htakes, hk⟩ := @Glob.takes_start CodePoint _ (chr '*') (chr '?')
    (chr '*' :: (List.replicate m a ++ [b])) (List.replicate (m + n) a)
  rw [hrework, List.length_replicate] at hk
  have hcount : k = m + n + (1 + m * n) := by omega
  rwa [hcount] at htakes

/-- `"*aaaab"` against `"aaaaaaaa"` takes 25 turns, and its bound is 22. -/
theorem globMatch_not_linear :
    ¬ ∀ pattern target : PyStr, ∃ k, Glob.Takes (chr '*') (chr '?') pattern target Glob.start k
      ∧ k ≤ 2 * target.length + pattern.length := by
  intro h
  obtain ⟨k, htakes, hk⟩ := h (lit "*aaaab") (lit "aaaaaaaa")
  have hrun := globMatch_takes_run (a := chr 'a') (b := chr 'b') (by decide) (by decide)
    (by decide) 4 4 (by decide)
  have hcount : k = 25 := htakes.unique hrun
  have hbound : 2 * (lit "aaaaaaaa" : PyStr).length + (lit "*aaaab" : PyStr).length = 22 := by
    decide
  omega

/-- What an operator says of a target's text. -/
def applyOp (op : PatternOp) (value target : PyStr) : Bool :=
  match op with
  | .equalsOp => target = value
  | .prefixOp => value.isPrefixOf target
  | .suffixOp => value.isSuffixOf target
  | .containsOp => value <:+: target
  | .globOp => globMatch value target

variable [Ucd]

/-- `match_one`. -/
def matchOne (op value : PyStr) (target : PyVal) : Except PyErr Bool :=
  match validOps.find? fun o => lit o.text = op with
  | none => .error (.valueError (lit "Unknown pattern operator: " ++ reprStr op))
  | some o =>
    match target with
    | .null => .ok false
    | target => .ok (applyOp o value (str target))

end Py

end OpenTerms
