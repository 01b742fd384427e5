import CartTokens.Disk
import CartTokens.Proofs.ContentLines

/-!
# Paths and their components

What a path means is its list of components.

* Paths are ordered by their components, and two of them come at the same place exactly if they
  have the same components (`Path.same_of_isLE_order`).
* The names to follow are those of the components, apart from dots that only stand between
  others (`Path.filter_steps`).
* A path that does not end in a slash or in dots ends in a name (`Path.exists_fileName?`).
-/

namespace CartTokens

/-! ### The order of paths -/

instance : Std.TransOrd Component :=
  inferInstanceAs (Std.TransCmp (compareLex (compareOn Component.rank) (compareOn Component.text)))

instance : Std.LawfulEqOrd Component where
  eq_of_compare := by
    intro a b h
    obtain ⟨hrank, htext⟩ := Ordering.then_eq_eq.mp h
    have hrank := Std.LawfulEqOrd.eq_of_compare hrank
    have htext := Std.LawfulEqOrd.eq_of_compare htext
    cases a <;> cases b <;> simp_all [Component.rank, Component.text]

namespace Path

instance : Std.TransCmp Path.order :=
  inferInstanceAs (Std.TransCmp (compareOn Path.components))

theorem same_iff {p q : Path} :
  p.same q ↔ p.components = q.components
  := beq_iff_eq

theorem same_symm {p q : Path} (h : p.same q) :
  q.same p
  := by
  rw [same_iff] at *
  exact h.symm

theorem isLE_order_of_same {p q : Path} (h : p.same q) :
  (p.order q).isLE
  := by
  rw [order, same_iff.mp h]
  exact Std.ReflCmp.isLE_rfl

theorem same_of_isLE_order {p q : Path} (hpq : (p.order q).isLE) (hqp : (q.order p).isLE) :
  p.same q
  := by
  rw [same_iff]
  exact Std.LawfulEqCmp.eq_of_compare (Std.OrientedCmp.isLE_antisymm hpq hqp)

theorem isLE_order_total (p q : Path) :
  (p.order q).isLE ∨ (q.order p).isLE
  := by
  have hswap : q.order p = (p.order q).swap := Std.OrientedCmp.eq_swap
  rw [hswap]
  cases p.order q <;> simp

theorem fileName?_eq_of_same {p q : Path} (h : p.same q) :
  p.fileName? = q.fileName?
  := by
  rw [fileName?, fileName?, same_iff.mp h]

end Path

/-! ### Parts of a text -/

namespace Text

theorem parts_ne_nil (sep : Char) (t : Text) :
  parts sep t ≠ []
  := by
  rw [parts_eq_splitOn]
  apply List.splitOn_ne_nil

theorem parts_cons_of_ne {sep c : Char} (h : c ≠ sep) (t : Text) :
  ∃ part rest, parts sep t = part :: rest ∧ parts sep (c :: t) = (c :: part) :: rest
  := by
  obtain ⟨part, rest, hparts⟩ := List.exists_cons_of_ne_nil (parts_ne_nil sep t)
  use part, rest, hparts
  rw [parts, if_neg h, hparts]

/-- A text has one part, or its last part follows its last separator. -/
theorem parts_cases (sep : Char) (t : Text) :
  parts sep t = [t]
    ∨ ∃ before last : Text, t = before ++ sep :: last ∧ parts sep t = parts sep before ++ [last]
  := by
  by_cases h : sep ∈ t
  · right
    obtain ⟨after, before, hreverse, hafter⟩ :=
      List.eq_append_cons_of_mem (List.mem_reverse.mpr h)
    have hlast : sep ∉ after.reverse := by rwa [List.mem_reverse]
    have ht : t = before.reverse ++ sep :: after.reverse := by
      rw [← List.reverse_reverse t, hreverse]
      simp
    use before.reverse, after.reverse, ht
    rw [ht, parts_eq_splitOn, parts_eq_splitOn, List.splitOn_append_cons_self,
      List.splitOn_eq_singleton hlast]
  · left
    rw [parts_eq_splitOn, List.splitOn_eq_singleton h]

/-- The characters of a text, apart from separators, are those of its parts. -/
theorem mem_iff_exists_mem_parts {sep c : Char} (hc : c ≠ sep) (t : Text) :
  c ∈ t ↔ ∃ part ∈ parts sep t, c ∈ part
  := by
  induction t with
  | nil => simp [parts]
  | cons first t ih =>
    by_cases hfirst : first = sep
    · rw [parts, if_pos hfirst, List.mem_cons, ih]
      simp [hfirst, hc]
    · obtain ⟨part, rest, hparts, hcons⟩ := parts_cons_of_ne hfirst t
      rw [hcons, List.mem_cons, ih, hparts]
      simp [or_assoc]

end Text

/-! ### The names to follow -/

/-- The last of the names to follow is a dot or two dots. -/
def EndsInDots (steps : List Text) : Prop :=
  steps.getLast? = some ['.'] ∨ steps.getLast? = some ['.', '.']

instance (steps : List Text) : Decidable (EndsInDots steps) :=
  inferInstanceAs (Decidable (_ ∨ _))

theorem EndsInDots.ne_nil {steps : List Text} (h : EndsInDots steps) :
  steps ≠ []
  := by
  rintro rfl
  exact absurd h (by decide)

theorem endsInDots_singleton {step : Text} :
  EndsInDots [step] ↔ step = ['.'] ∨ step = ['.', '.']
  := by
  rw [EndsInDots, List.getLast?_singleton, Option.some_inj, Option.some_inj]

theorem endsInDots_append {steps : List Text} (hne : steps ≠ []) (before : List Text) :
  EndsInDots (before ++ steps) ↔ EndsInDots steps
  := by
  rw [EndsInDots, List.getLast?_append_of_ne_nil _ hne, EndsInDots]

theorem endsInDots_cons {rest : List Text} (hne : rest ≠ []) (step : Text) :
  EndsInDots (step :: rest) ↔ EndsInDots rest
  := endsInDots_append hne [step]

theorem EndsInDots.tail {step : Text} {rest : List Text} (h : EndsInDots (step :: rest))
    (hdot : step ≠ ['.']) (hdots : step ≠ ['.', '.']) :
  EndsInDots rest
  := by
  cases rest with
  | nil =>
    obtain hstep | hstep := endsInDots_singleton.mp h
    · exact absurd hstep hdot
    · exact absurd hstep hdots
  | cons next rest => exact (endsInDots_cons (List.cons_ne_nil next rest) step).mp h

namespace Component

/-- The name to follow for a component, if any. -/
def step? : Component → Option Text
  | .root => none
  | .here => none
  | .up => some ['.', '.']
  | .name t => some t

/-- A part between slashes leads somewhere else unless it is empty or a dot. -/
def isStep (part : Text) : Bool :=
  !part.isEmpty && part != ['.']

theorem isStep_of_mem {part : Text} {c : Char} (h : c ∈ part) (hc : c ≠ '.') :
  isStep part
  := by
  rw [isStep, Bool.and_eq_true, bne_iff_ne]
  constructor
  · rw [Bool.not_eq_true', List.isEmpty_eq_false_iff]
    exact List.ne_nil_of_mem h
  · rintro rfl
    exact hc (List.mem_singleton.mp h)

theorem ofPart?_eq_name {part : Text} (hne : part ≠ []) (hdots : ¬ EndsInDots [part]) :
  ofPart? part = some (.name part)
  := by
  rw [endsInDots_singleton, not_or] at hdots
  simp [ofPart?, hne, hdots]

theorem ofPart?_bind_step? (part : Text) :
  (ofPart? part).bind step? = if isStep part then some part else none
  := by
  by_cases hne : part = []
  · rw [hne]
    rfl
  · by_cases hdots : EndsInDots [part]
    · obtain rfl | rfl := endsInDots_singleton.mp hdots <;> rfl
    · rw [ofPart?_eq_name hne hdots]
      rw [endsInDots_singleton, not_or] at hdots
      simp [step?, isStep, hne, hdots]

theorem filterMap_step?_ofPart? (parts : List Text) :
  (parts.filterMap ofPart?).filterMap step? = parts.filter isStep
  := by
  rw [List.filterMap_filterMap, ← List.filterMap_eq_filter]
  apply List.filterMap_congr
  intro part _
  rw [ofPart?_bind_step?]
  rfl

end Component

namespace Path

/-- A slash at the end of a path is followed by a dot. -/
theorem endsInDots_steps {p : Path} (h : p.text.getLast? = some '/') :
  EndsInDots p.steps
  := by
  rw [steps, if_pos (by simpa using h), endsInDots_append (List.cons_ne_nil _ _)]
  decide

theorem steps_of_not_endsInDots {p : Path} (h : ¬ EndsInDots p.steps) :
  p.steps = (Text.parts '/' p.text).filter fun part => !part.isEmpty
  := by
  have hslash := mt endsInDots_steps h
  rw [steps, if_neg (by simpa using hslash), List.append_nil]

/-- The names of the components are the parts that lead somewhere else. -/
theorem filterMap_step?_components (p : Path) :
  p.components.filterMap Component.step? = (Text.parts '/' p.text).filter Component.isStep
  := by
  rw [components]
  cases Text.parts '/' p.text with
  | nil => rfl
  | cons first rest =>
    have hfirst : first :: rest = [first] ++ rest := rfl
    rw [List.filterMap_append, Component.filterMap_step?_ofPart?, hfirst, List.filter_append]
    congr 1
    split
    · rename_i hroot
      obtain rfl : first = [] := by simp_all
      rfl
    · split
      · rename_i hhere
        rw [hhere]
        rfl
      · rw [← Component.filterMap_step?_ofPart?]
        cases hpart : Component.ofPart? first <;> simp [hpart]

/-- Apart from dots in between, the names to follow are those of the components. -/
theorem filter_steps {p : Path} (h : ¬ EndsInDots p.steps) :
  p.steps.filter (· != ['.']) = p.components.filterMap Component.step?
  := by
  rw [steps_of_not_endsInDots h, filterMap_step?_components, List.filter_filter]
  apply List.filter_congr
  intro part _
  rw [Component.isStep, Bool.and_comm]

theorem isAbsolute_iff (p : Path) :
  p.isAbsolute ↔ p.components.head? = some .root
  := by
  rw [isAbsolute, components]
  cases htext : p.text with
  | nil => decide
  | cons c t =>
    by_cases hc : c = '/'
    · obtain ⟨part, rest, hparts⟩ := List.exists_cons_of_ne_nil (Text.parts_ne_nil '/' t)
      rw [Text.parts, if_pos hc, hparts]
      simp [hc]
    · obtain ⟨part, rest, -, hparts⟩ := Text.parts_cons_of_ne hc t
      rw [hparts]
      by_cases hdot : c :: part = ['.']
      · simp [hdot, hc]
      · by_cases hdots : c :: part = ['.', '.'] <;>
          simp [Component.ofPart?, hdot, hdots, hc]

theorem mem_text_iff {c : Char} (hslash : c ≠ '/') (hdot : c ≠ '.') (p : Path) :
  c ∈ p.text ↔ ∃ step ∈ p.components.filterMap Component.step?, c ∈ step
  := by
  rw [Text.mem_iff_exists_mem_parts hslash, filterMap_step?_components]
  apply exists_congr
  intro part
  rw [List.mem_filter, and_assoc, and_congr_right_iff]
  intro _
  rw [iff_and_self]
  intro hc
  exact Component.isStep_of_mem hc hdot

/-- What follows the last slash of a path, if there is a slash. -/
theorem getLast?_components {p : Path} {before last : Text}
    (hparts : Text.parts '/' p.text = Text.parts '/' before ++ [last]) (hne : last ≠ [])
    (hdots : ¬ EndsInDots [last]) :
  p.components.getLast? = some (.name last)
  := by
  obtain ⟨first, rest, hbefore⟩ := List.exists_cons_of_ne_nil (Text.parts_ne_nil '/' before)
  rw [components, hparts, hbefore, List.cons_append]
  simp only [List.filterMap_append, ← List.append_assoc]
  rw [List.filterMap_cons_some (Component.ofPart?_eq_name hne hdots), List.filterMap_nil,
    List.getLast?_concat]

/-- A path without slashes that is not made of dots is the name itself. -/
theorem fileName?_of_parts {p : Path} (hparts : Text.parts '/' p.text = [p.text])
    (hne : p.text ≠ []) (hdots : ¬ EndsInDots [p.text]) :
  p.fileName? = some p.text
  := by
  have hdot : p.text ≠ ['.'] := fun h => hdots (endsInDots_singleton.mpr (.inl h))
  have hcomponents : p.components = [.name p.text] := by
    rw [components, hparts]
    simp [hne, hdot, Component.ofPart?_eq_name hne hdots]
  rw [fileName?, hcomponents]
  rfl

/-- A path that does not end in a slash or in dots ends in a name. -/
theorem exists_fileName? {p : Path} (hne : p.text ≠ []) (hdots : ¬ EndsInDots p.steps) :
  ∃ name, p.fileName? = some name
  := by
  have hslash : p.text.getLast? ≠ some '/' := mt endsInDots_steps hdots
  rw [steps_of_not_endsInDots hdots] at hdots
  obtain hparts | ⟨before, last, htext, hparts⟩ := Text.parts_cases '/' p.text
  · rw [hparts, List.filter_cons_of_pos (by simpa using hne), List.filter_nil] at hdots
    use p.text, fileName?_of_parts hparts hne hdots
  · have hlast : last ≠ [] := by
      rintro rfl
      apply hslash
      rw [htext, List.getLast?_concat]
    rw [hparts, List.filter_append, List.filter_cons_of_pos (by simpa using hlast),
      List.filter_nil, endsInDots_append (List.cons_ne_nil _ _)] at hdots
    use last
    rw [fileName?, getLast?_components hparts hlast hdots]

/-- Of paths that do not end in dots, the empty one is told from the others by its components. -/
theorem text_ne_nil_of_same {p q : Path} (hne : p.text ≠ []) (hdots : ¬ EndsInDots p.steps)
    (h : p.same q) :
  q.text ≠ []
  := by
  intro hempty
  have hcomponents : q.components = [] := by
    rw [components, hempty]
    rfl
  obtain ⟨name, hname⟩ := exists_fileName? hne hdots
  rw [fileName?_eq_of_same h, fileName?, hcomponents] at hname
  simp at hname

end Path

end CartTokens
