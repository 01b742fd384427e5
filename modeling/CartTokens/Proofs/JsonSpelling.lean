import CartTokens.Proofs.JsonScalar

/-!
# Spellings of JSON values

`Json.Spells` relates a value to the texts that are that value, with gaps between its parts.  The
form in one line and the indented form are such texts (`Json.spells_compact`,
`Json.spells_indented`).
-/

namespace CartTokens

namespace Json

open Text JsonReader

/-! ### Spellings of a value -/

/-- Texts with commas between them and gaps around them, one for each element. -/
inductive Separated {α : Type} (p : α → Text → Prop) : List α → Text → Prop where
  | one {a : α} {t v w : Text} (hv : Gaps v) (ha : p a t) (hw : Gaps w) :
      Separated p [a] (v ++ (t ++ w))
  | cons {a : α} {as : List α} {t v w rest : Text} (hv : Gaps v) (ha : p a t) (hw : Gaps w)
      (has : Separated p as rest) : Separated p (a :: as) (v ++ (t ++ (w ++ ',' :: rest)))

mutual

/-- The text is the value, with gaps between its parts. -/
inductive Spells : Json → Text → Prop where
  | number (n : Int) : Spells (.number n) (ofInt n)
  | string (t : Text) : Spells (.string t) (quote t)
  | emptyArray {w : Text} (hw : Gaps w) : Spells (.array []) ('[' :: (w ++ [']']))
  | array {vs : List Json} {t : Text} (h : Separated Spells vs t) :
      Spells (.array vs) ('[' :: (t ++ [']']))
  | emptyObject {w : Text} (hw : Gaps w) : Spells (.object []) ('\x7b' :: (w ++ ['\x7d']))
  | object {ms : List (Text × Json)} {t : Text} (h : Separated SpellsMember ms t) :
      Spells (.object ms) ('\x7b' :: (t ++ ['\x7d']))

/-- The text is the member, with gaps between its parts. -/
inductive SpellsMember : Text × Json → Text → Prop where
  | mk {key : Text} {value : Json} {t v w : Text} (hv : Gaps v) (hw : Gaps w)
      (hvalue : Spells value t) :
      SpellsMember (key, value) (quote key ++ (v ++ ':' :: (w ++ t)))

end

theorem gaps_nil : Gaps [] := List.forall_mem_nil _

theorem Separated.append_gaps {α : Type} {p : α → Text → Prop} {as : List α} {t : Text}
    (h : Separated p as t) {w : Text} (hw : Gaps w) :
  Separated p as (t ++ w)
  := by
  induction h with
  | one hv ha hw' =>
    rw [List.append_assoc, List.append_assoc]
    exact .one hv ha (List.forall_mem_append.mpr ⟨hw', hw⟩)
  | cons hv ha hw' has ih =>
    rw [List.append_assoc, List.append_assoc, List.append_assoc, List.cons_append]
    exact .cons hv ha hw' ih

theorem Separated.singleton {α : Type} {p : α → Text → Prop} {a : α} {t v : Text} (hv : Gaps v)
    (ha : p a t) :
  Separated p [a] (v ++ t)
  := by
  have h := Separated.one hv ha gaps_nil
  rwa [List.append_nil] at h

/-! ### In one line -/

theorem spellsMember_compact {value : Json} (h : Spells value value.compact) (key : Text) :
  SpellsMember (key, value) (quote key ++ ':' :: value.compact)
  := .mk gaps_nil gaps_nil h

mutual

theorem spells_compact : (value : Json) → Spells value value.compact
  | .number n => .number n
  | .string t => .string t
  | .array [] => .emptyArray gaps_nil
  | .array (v :: vs) => .array (separated_compactItems (v :: vs) (List.cons_ne_nil v vs))
  | .object [] => .emptyObject gaps_nil
  | .object (m :: ms) => .object (separated_compactMembers (m :: ms) (List.cons_ne_nil m ms))

theorem separated_compactItems : (values : List Json) → values ≠ [] →
    Separated Spells values (compactItems values)
  | [], h => absurd rfl h
  | [v], _ => .singleton gaps_nil (spells_compact v)
  | v :: u :: vs, _ => .cons gaps_nil (spells_compact v) gaps_nil
      (separated_compactItems (u :: vs) (List.cons_ne_nil u vs))

theorem separated_compactMembers : (ms : List (Text × Json)) → ms ≠ [] →
    Separated SpellsMember ms (compactMembers ms)
  | [], h => absurd rfl h
  | [(key, v)], _ => .singleton (v := []) gaps_nil (spellsMember_compact (spells_compact v) key)
  | (key, v) :: m :: ms, _ =>
    .cons gaps_nil (spellsMember_compact (spells_compact v) key) gaps_nil
      (separated_compactMembers (m :: ms) (List.cons_ne_nil m ms))

end

/-! ### Indented -/

theorem gaps_newline (level : Nat) : Gaps (newline level) := by
  rw [newline, Gaps, List.forall_mem_cons]
  refine ⟨by decide, ?_⟩
  intro c hc
  rw [List.eq_of_mem_replicate hc]
  decide

theorem spellsMember_indented {level : Nat} {value : Json}
    (h : Spells value (value.indented level)) (key : Text) :
  SpellsMember (key, value) (quote key ++ ": ".toList ++ value.indented level)
  := by
  have hblank : Gaps [' '] := List.forall_mem_singleton.mpr (by decide)
  rw [List.append_assoc]
  exact .mk gaps_nil hblank h

mutual

theorem spells_indented (level : Nat) : (value : Json) → Spells value (value.indented level)
  | .number n => .number n
  | .string t => .string t
  | .array [] => .emptyArray gaps_nil
  | .array (v :: vs) => .array
      ((separated_indentedItems (level + 1) (v :: vs) (List.cons_ne_nil v vs)).append_gaps
        (gaps_newline level))
  | .object [] => .emptyObject gaps_nil
  | .object (m :: ms) => .object
      ((separated_indentedMembers (level + 1) (m :: ms) (List.cons_ne_nil m ms)).append_gaps
        (gaps_newline level))

theorem separated_indentedItems (level : Nat) : (values : List Json) → values ≠ [] →
    Separated Spells values (indentedItems level values)
  | [], h => absurd rfl h
  | [v], _ => .singleton (gaps_newline level) (spells_indented level v)
  | v :: u :: vs, _ => by
    have hrest := separated_indentedItems level (u :: vs) (List.cons_ne_nil u vs)
    have hshape : indentedItems level (v :: u :: vs)
        = newline level ++ (v.indented level ++ ([] ++ ',' :: indentedItems level (u :: vs))) := by
      simp [indentedItems]
    rw [hshape]
    exact .cons (gaps_newline level) (spells_indented level v) gaps_nil hrest

theorem separated_indentedMembers (level : Nat) : (ms : List (Text × Json)) → ms ≠ [] →
    Separated SpellsMember ms (indentedMembers level ms)
  | [], h => absurd rfl h
  | [(key, v)], _ => by
    have hv := spellsMember_indented (spells_indented level v) key
    have hshape : indentedMembers level [(key, v)]
        = newline level ++ (quote key ++ ": ".toList ++ v.indented level) := by
      simp [indentedMembers]
    rw [hshape]
    exact .singleton (gaps_newline level) hv
  | (key, v) :: m :: ms, _ => by
    have hv := spellsMember_indented (spells_indented level v) key
    have hrest := separated_indentedMembers level (m :: ms) (List.cons_ne_nil m ms)
    have hshape : indentedMembers level ((key, v) :: m :: ms)
        = newline level ++ (quote key ++ ": ".toList ++ v.indented level
          ++ ([] ++ ',' :: indentedMembers level (m :: ms))) := by
      simp [indentedMembers]
    rw [hshape]
    exact .cons (gaps_newline level) hv gaps_nil hrest

end

end Json

end CartTokens
