import CartTokens.Vocabulary

/-!
# Merged tokens

Neighbouring tokens that belong together are merged: a number, a dot and a number; the two
parts of a compound operator; a minus sign and the number it belongs to.  `groups` says which
neighbours come together, and `merge` puts the texts of each group together.
-/

namespace CartTokens

/-- How many of the tokens after `a` come together with it, the merged token before `a`
being `prev`. -/
def fused (prev : Option Text) (a : Text) : List Text → Nat
  | [] => 0
  | b :: rest =>
    if b = ['.'] && isPlainNumber a && rest.head?.any isPlainNumber then 2
    else if isCompound a b then 1
    else if a = ['-'] && isNumber b && b.head? != some '-' && prev.any signContexts.contains then
      1
    else 0

/-- The tokens in groups that come together, the merged token before them being `prev`. -/
def groups (prev : Option Text) : List Text → List (List Text)
  | [] => []
  | a :: rest =>
    (a :: rest.take (fused prev a rest)) ::
      groups (some (a :: rest.take (fused prev a rest)).flatten) (rest.drop (fused prev a rest))
termination_by ts => ts.length

/-- The merged tokens. -/
def merge (ts : List Text) : List Text :=
  (groups none ts).map List.flatten

/-- No token is lost, repeated or moved. -/
theorem flatten_groups (prev : Option Text) (ts : List Text) :
  (groups prev ts).flatten = ts
  := by
  fun_induction groups prev ts with
  | case1 => rfl
  | case2 prev a rest ih =>
    rw [List.flatten_cons, ih, List.cons_append, List.take_append_drop]

end CartTokens
