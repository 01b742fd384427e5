import CartTokens.Proofs.JsonReader

/-!
# Values in one line

A value of any shape is read from a text (`Json.read`), with numbers that are integers of any size.
The form of a value in one line has no line break in it (`Json.newline_notMem_compact`), and the
value is read back from it (`Json.read_compact`).
-/

namespace CartTokens

namespace JsonReader

open Text Lexeme Json

/-! ### Reading any value -/

/-- Reads an integer of any size. -/
def integer : JsonReader Json := fun t => do
  let (w, rest) ← readWritten t
  if w.plain then return (.number (if w.negative then -w.digits else w.digits), rest)
  else .error .mismatched

/-- Reads the value of a member, and adds the member to those before it. -/
def addMember (reader : JsonReader Json) (ms : List (Text × Json)) (key t : Text) :
    Except JsonFault (List (Text × Json) × Text) := do
  let (v, rest) ← reader (← colon t)
  return (ms ++ [(key, v)], rest)

/-- Reads any value with fewer than `fuel` levels. -/
def value : (fuel : Nat) → JsonReader Json
  | 0, _ => .error .malformed
  | fuel + 1, t =>
    match skipGaps t with
    | '\x22' :: _ => (string t).map fun (s, rest) => (.string s, rest)
    | '[' :: _ => (array (value fuel) t).map fun (vs, rest) => (.array vs, rest)
    | '\x7b' :: cs =>
      (members (addMember (value fuel)) (cs.length + 1) true [] cs).map
        fun (ms, rest) => (.object ms, rest)
    | other => integer other

theorem integer_ofInt (n : Int) {rest : Text} (h : StopsAt continuesNumber rest) :
  integer (ofInt n ++ rest) = .ok (.number n, rest)
  := by
  cases n with
  | ofNat n =>
    obtain ⟨d, ds, hds, hdigit⟩ := exists_ofNat_eq_cons n
    have hsign : d ≠ '-' := by
      rintro rfl
      exact absurd hdigit (by decide)
    have hread := readMagnitude_ofNat false n h
    rw [hds, List.cons_append, ← readWritten_of_ne hsign] at hread
    rw [integer, ofInt, hds, List.cons_append, hread]
    rfl
  | negSucc n =>
    have hread := readMagnitude_ofNat true (n + 1) h
    rw [← readWritten_minus] at hread
    rw [integer, ofInt, List.cons_append, hread]
    rfl

end JsonReader

namespace Json

open Text JsonReader

/-- Reads a value from a whole text, which is longer than a value in it has levels. -/
def read (t : Text) : Except JsonFault Json :=
  whole (value (t.length + 1)) t

/-- The value has fewer than `n` levels. -/
def LevelsBelow : Nat → Json → Prop
  | 0, _ => False
  | _ + 1, .number _ => True
  | _ + 1, .string _ => True
  | n + 1, .array vs => ∀ v ∈ vs, LevelsBelow n v
  | n + 1, .object ms => ∀ m ∈ ms, LevelsBelow n m.2

end Json

namespace JsonReader

open Text Lexeme Json

theorem takesAll_addMember {reader : JsonReader Json} {ms : List (Text × Json)}
    (h : ∀ m ∈ ms, ∀ t : Text, Spells m.2 t → Reads reader t m.2) (before : List (Text × Json)) :
  TakesAll (addMember reader) before ms (before ++ ms)
  := by
  induction ms generalizing before with
  | nil =>
    rw [List.append_nil]
    apply TakesAll.nil
  | cons m ms ih =>
    rw [List.forall_mem_cons] at h
    have hrest := ih h.2 (before ++ [m])
    rw [List.append_assoc, List.singleton_append] at hrest
    refine .cons ?_ hrest
    intro t ht v w rest hv hw hrest
    have hread := h.1 t ht hw hrest
    rw [addMember, colon_gaps_append hv]
    dsimp only [bind, Except.bind]
    rw [hread]
    rfl

section

variable (fuel : Nat) {t cs : Text}

theorem value_string (h : skipGaps t = '\x22' :: cs) :
  value (fuel + 1) t = (string t).map fun (s, rest) => (.string s, rest)
  := by
  rw [value, h]
  rfl

theorem value_array (h : skipGaps t = '[' :: cs) :
  value (fuel + 1) t = (array (value fuel) t).map fun (vs, rest) => (.array vs, rest)
  := by
  rw [value, h]
  rfl

theorem value_object (h : skipGaps t = '\x7b' :: cs) :
  value (fuel + 1) t
    = (members (addMember (value fuel)) (cs.length + 1) true [] cs).map
      fun (ms, rest) => (.object ms, rest)
  := by
  rw [value, h]
  rfl

theorem value_number {c : Char} (hc : startsNumber c) (h : skipGaps t = c :: cs) :
  value (fuel + 1) t = integer (c :: cs)
  := by
  have hne : ∀ d, ¬ startsNumber d → c ≠ d := by
    rintro d hd rfl
    apply hd hc
  rw [value, h]
  split
  · rename_i heq
    apply absurd (List.cons.inj heq).1 (hne _ (by decide))
  · rename_i heq
    apply absurd (List.cons.inj heq).1 (hne _ (by decide))
  · rename_i heq
    apply absurd (List.cons.inj heq).1 (hne _ (by decide))
  · rfl

end

/-- The members of an object are read, also if there are none. -/
theorem members_addMember {reader : JsonReader Json} {ms : List (Text × Json)}
    (hreads : ∀ m ∈ ms, ∀ t : Text, Spells m.2 t → Reads reader t m.2) {t : Text}
    (h : Spells (.object ms) t) :
  ∃ u : Text, t = '\x7b' :: u ∧ ∀ rest : Text,
    members (addMember reader) ((u ++ rest).length + 1) true [] (u ++ rest) = .ok (ms, rest)
  := by
  cases ms with
  | nil =>
    cases h with
    | @emptyObject w hw =>
      use w ++ ['\x7d'], rfl
      intro rest
      rw [List.append_assoc]
      apply members_closed _ (Nat.succ_pos _) _ _ hw
    | object h => cases h
  | cons m ms => apply members_of_spells h (takesAll_addMember hreads [])

theorem exists_of_spells_array {vs : List Json} {t : Text} (h : Spells (.array vs) t) :
  ∃ cs : Text, t = '[' :: cs
  := by
  cases h with
  | emptyArray => exact ⟨_, rfl⟩
  | array => exact ⟨_, rfl⟩

/-- A value is read from every spelling of it. -/
theorem reads_value {fuel : Nat} {v : Json} (hlevels : v.LevelsBelow fuel) {t : Text}
    (h : Spells v t) :
  Reads (value fuel) t v
  := by
  induction fuel generalizing v t with
  | zero => exact hlevels.elim
  | succ fuel ih =>
    intro w rest hw hrest
    have hgaps := skipGaps_of_spells h hw rest
    cases v with
    | number n =>
      obtain ⟨c, cs, hn, hc⟩ := exists_ofInt_eq_cons n
      have hread := integer_ofInt n hrest
      cases h
      rw [hn, List.cons_append] at hread hgaps
      rw [hn, List.cons_append, value_number fuel hc hgaps, hread]
    | string s =>
      have hread := reads_string h hw hrest
      cases h
      rw [value_string fuel hgaps, hread]
      rfl
    | array vs =>
      have hspells : Spells (.array (vs.map id)) t := by rwa [List.map_id]
      have hread := reads_array (fun v hv t ht => ih (hlevels v hv) ht) hspells hw hrest
      obtain ⟨cs, rfl⟩ := exists_of_spells_array h
      rw [value_array fuel hgaps, hread]
      rfl
    | object ms =>
      obtain ⟨u, rfl, hread⟩ := members_addMember (fun m hm t ht => ih (hlevels m hm) ht) h
      rw [List.cons_append] at hgaps
      rw [List.cons_append, value_object fuel hgaps, hread]
      rfl

end JsonReader

namespace Json

open Text JsonReader

/-! ### The levels of a value -/

theorem length_compact_le_compactItems {v : Json} {vs : List Json} (h : v ∈ vs) :
  v.compact.length ≤ (compactItems vs).length
  := by
  induction vs with
  | nil => simp at h
  | cons u vs ih =>
    have hu : u.compact.length ≤ (compactItems (u :: vs)).length := by
      cases vs <;> simp [compactItems]
    rcases List.mem_cons.mp h with rfl | h
    · apply hu
    · apply (ih h).trans
      cases vs with
      | nil => simp at h
      | cons u vs =>
        simp only [compactItems, List.length_append, List.length_cons]
        omega

theorem length_compact_le_compactMembers {m : Text × Json} {ms : List (Text × Json)}
    (h : m ∈ ms) :
  m.2.compact.length ≤ (compactMembers ms).length
  := by
  induction ms with
  | nil => simp at h
  | cons u ms ih =>
    have hu : u.2.compact.length ≤ (compactMembers (u :: ms)).length := by
      cases ms <;> simp [compactMembers] <;> omega
    rcases List.mem_cons.mp h with rfl | h
    · apply hu
    · apply (ih h).trans
      cases ms with
      | nil => simp at h
      | cons u ms =>
        simp only [compactMembers, List.length_append, List.length_cons]
        omega

theorem levelsBelow_of_length_lt {n : Nat} {v : Json} (h : v.compact.length < n) :
  v.LevelsBelow n
  := by
  induction n generalizing v with
  | zero => contradiction
  | succ n ih =>
    cases v with
    | number => trivial
    | string => trivial
    | array vs =>
      intro v hv
      have hlength := length_compact_le_compactItems hv
      rw [compact, List.length_append, List.length_cons] at h
      apply ih
      omega
    | object ms =>
      intro m hm
      have hlength := length_compact_le_compactMembers hm
      rw [compact, List.length_append, List.length_cons] at h
      apply ih
      omega

/-- A value is read back from its form in one line. -/
theorem read_compact (v : Json) :
  read v.compact = .ok v
  := by
  apply whole_of_reads
  apply reads_value (levelsBelow_of_length_lt (Nat.lt_succ_self _)) (spells_compact v)

/-! ### Line breaks -/

theorem newline_notMem_escape (c : Char) :
  '\n' ∉ escape c
  := by
  have hhex : ∀ n < 16, '\n' ≠ hexDigit n := by decide
  obtain ⟨d, hescape, -, hc⟩ | ⟨hcontrol, hescape⟩ | ⟨-, -, hplain, hescape⟩ := escape_cases c
  · have hnone : shortEscape? '\n' = none := by decide
    rw [hescape, List.mem_pair, not_or]
    use by decide
    rintro rfl
    rw [hnone] at hc
    contradiction
  · have hhigh := hhex (c.toNat / 16) (by omega)
    have hlow := hhex (c.toNat % 16) (by omega)
    simp [hescape, hhigh, hlow]
  · rw [hescape, List.mem_singleton]
    rintro rfl
    apply hplain (by decide)

theorem newline_notMem_quote (t : Text) :
  '\n' ∉ quote t
  := by
  rw [quote, List.cons_append, List.mem_cons, List.mem_append, List.mem_flatMap,
    List.mem_singleton]
  rintro (h | ⟨c, -, hc⟩ | h)
  · exact absurd h (by decide)
  · exact newline_notMem_escape c hc
  · exact absurd h (by decide)

theorem newline_notMem_ofNat (n : Nat) :
  '\n' ∉ ofNat n
  := by
  intro h
  exact absurd (isDigit_of_mem_ofNat h) (by decide)

theorem newline_notMem_ofInt (n : Int) :
  '\n' ∉ ofInt n
  := by
  cases n with
  | ofNat n => apply newline_notMem_ofNat
  | negSucc n =>
    rw [ofInt, List.mem_cons, not_or]
    use by decide, newline_notMem_ofNat (n + 1)

mutual

/-- A value in one line has no line break in it. -/
theorem newline_notMem_compact : (v : Json) → '\n' ∉ v.compact
  | .number n => newline_notMem_ofInt n
  | .string t => newline_notMem_quote t
  | .array vs => by
    have hitems := newline_notMem_compactItems vs
    simp [compact, hitems]
  | .object ms => by
    have hmembers := newline_notMem_compactMembers ms
    simp [compact, hmembers]

theorem newline_notMem_compactItems : (vs : List Json) → '\n' ∉ compactItems vs
  | [] => List.not_mem_nil
  | [v] => newline_notMem_compact v
  | v :: u :: vs => by
    have hfirst := newline_notMem_compact v
    have hrest := newline_notMem_compactItems (u :: vs)
    simp [compactItems, hfirst, hrest]

theorem newline_notMem_compactMembers : (ms : List (Text × Json)) → '\n' ∉ compactMembers ms
  | [] => List.not_mem_nil
  | [(key, v)] => by
    have hkey := newline_notMem_quote key
    have hvalue := newline_notMem_compact v
    simp [compactMembers, hkey, hvalue]
  | (key, v) :: m :: ms => by
    have hkey := newline_notMem_quote key
    have hvalue := newline_notMem_compact v
    have hrest := newline_notMem_compactMembers (m :: ms)
    simp [compactMembers, hkey, hvalue, hrest]

end

end Json

end CartTokens
