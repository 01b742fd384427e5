import CartTokens.Json.Reader
import CartTokens.Proofs.JsonSpelling

/-!
# Reading spelled values

A reader reads a text as a value if it does so with gaps before it, and with anything behind it
that does not continue a number (`JsonReader.Reads`).  Strings, numbers and arrays are read from
every spelling of them, and the members of an object one after another
(`JsonReader.members_of_spells`).
-/

namespace CartTokens

namespace JsonReader

open Text Lexeme Json

/-! ### Values of an expected type -/

/-- The reader gives `a` on the text, gaps before it and anything behind it that does not
continue a number. -/
def Reads {α : Type} (reader : JsonReader α) (t : Text) (a : α) : Prop :=
  ∀ ⦃w rest : Text⦄, Gaps w → StopsAt continuesNumber rest →
    reader (w ++ (t ++ rest)) = .ok (a, rest)

/-- The text begins with a part that does not end an array. -/
def Begins (t : Text) : Prop :=
  ∃ (c : Char) (cs : Text), t = c :: cs ∧ ¬ isGap c ∧ c ≠ ']'

theorem Begins.skipGaps_append {t : Text} (h : Begins t) {w : Text} (hw : Gaps w) (rest : Text) :
  skipGaps (w ++ (t ++ rest)) = t ++ rest
  := by
  obtain ⟨c, cs, rfl, hgap, -⟩ := h
  exact JsonReader.skipGaps_append hw (stopsAt_cons.mpr hgap)

theorem isGap_iff {c : Char} :
  isGap c ↔ ((c = ' ' ∨ c = '\n') ∨ c = '\t') ∨ c = '\r'
  := by
  simp only [isGap, Bool.or_eq_true, beq_iff_eq]

/-- What begins a number is no gap and no bracket. -/
theorem not_isGap_of_startsNumber {c : Char} (h : startsNumber c) :
  ¬ isGap c ∧ c ≠ ']'
  := by
  constructor
  · intro hgap
    rcases isGap_iff.mp hgap with ((rfl | rfl) | rfl) | rfl <;> exact absurd h (by decide)
  · rintro rfl
    exact absurd h (by decide)

theorem exists_ofInt_eq_cons (n : Int) :
  ∃ (c : Char) (cs : Text), ofInt n = c :: cs ∧ startsNumber c
  := by
  cases n with
  | negSucc n => exact ⟨'-', ofNat (n + 1), rfl, by decide⟩
  | ofNat n =>
    obtain ⟨d, ds, hds, hdigit⟩ := exists_ofNat_eq_cons n
    refine ⟨d, ds, hds, ?_⟩
    rw [startsNumber, hdigit, Bool.or_true]

theorem begins_of_spells {value : Json} {t : Text} (h : Spells value t) :
  Begins t
  := by
  cases h with
  | number n =>
    obtain ⟨c, cs, hn, hc⟩ := exists_ofInt_eq_cons n
    exact ⟨c, cs, hn, not_isGap_of_startsNumber hc⟩
  | string t => exact ⟨'\x22', _, rfl, by decide, by decide⟩
  | emptyArray hw => exact ⟨'[', _, rfl, by decide, by decide⟩
  | array h => exact ⟨'[', _, rfl, by decide, by decide⟩
  | emptyObject hw => exact ⟨'\x7b', _, rfl, by decide, by decide⟩
  | object h => exact ⟨'\x7b', _, rfl, by decide, by decide⟩

theorem skipGaps_of_spells {value : Json} {t : Text} (h : Spells value t) {w : Text}
    (hw : Gaps w) (rest : Text) :
  skipGaps (w ++ (t ++ rest)) = t ++ rest
  := (begins_of_spells h).skipGaps_append hw rest

theorem quote_append (t rest : Text) :
  quote t ++ rest = '\x22' :: (t.flatMap escape ++ '\x22' :: rest)
  := by
  rw [quote, List.append_assoc]
  rfl

theorem reads_string {s t : Text} (h : Spells (.string s) t) :
  Reads string t s
  := by
  intro w rest hw hrest
  rw [string, skipGaps_of_spells h hw]
  cases h
  rw [quote_append]
  exact readString_escaped s rest

theorem reads_nullable_string {s t : Text} (h : Spells (.string s) t) :
  Reads (nullable string) t (some s)
  := by
  intro w rest hw hrest
  have hread := reads_string h hw hrest
  rw [nullable, skipGaps_of_spells h hw, hread]
  cases h
  rw [quote_append]
  rfl

theorem number_of_spells {n : Int} {t : Text} (h : Spells (.number n) t) {w : Text}
    (hw : Gaps w) (rest : Text) :
  number (w ++ (t ++ rest)) = readNumber (ofInt n ++ rest)
  := by
  rw [number, skipGaps_of_spells h hw]
  cases h
  obtain ⟨c, cs, hn, hc⟩ := exists_ofInt_eq_cons n
  rw [hn]
  exact if_pos hc

theorem reads_unsigned {n : Nat} (hn : n ≤ maxUnsigned) {t : Text}
    (h : Spells (.number n) t) :
  Reads unsigned t n
  := by
  intro w rest hw hrest
  have hread : readNumber (ofInt n ++ rest) = .ok (.unsigned n, rest) := readNumber_ofNat hn hrest
  rw [unsigned, number_of_spells h hw, hread]
  rfl

theorem reads_signed {n : Int} (hlow : -(maxSigned : Int) - 1 ≤ n) (hhigh : n ≤ maxSigned)
    {t : Text} (h : Spells (.number n) t) :
  Reads signed t n
  := by
  intro w rest hw hrest
  rw [signed, number_of_spells h hw]
  cases n with
  | ofNat n =>
    have hn : n ≤ maxSigned := Int.ofNat_le.mp hhigh
    have hmax : maxSigned ≤ maxUnsigned := by decide
    have hread : readNumber (ofInt (.ofNat n) ++ rest) = .ok (.unsigned n, rest) :=
      readNumber_ofNat (hn.trans hmax) hrest
    rw [hread]
    exact if_pos hn
  | negSucc n =>
    have hn : n + 1 ≤ maxSigned + 1 := by omega
    have hread : readNumber (ofInt (.negSucc n) ++ rest) = .ok (.negative (n + 1), rest) :=
      readNumber_negative n.succ_pos hn hrest
    rw [hread]
    rfl

/-! ### Arrays -/

theorem stopsAt_of_gaps {w : Text} (hw : Gaps w) :
  StopsAt continuesNumber w
  := by
  intro c hc hnumber
  rcases isGap_iff.mp (hw c (List.mem_of_head? hc)) with ((rfl | rfl) | rfl) | rfl <;>
    exact absurd hnumber (by decide)

theorem stopsAt_gaps_append {w : Text} (hw : Gaps w) {c : Char} (hc : ¬ continuesNumber c)
    (rest : Text) :
  StopsAt continuesNumber (w ++ c :: rest)
  := (stopsAt_of_gaps hw).append (stopsAt_cons.mpr hc)

theorem skipGaps_append_cons {w : Text} (hw : Gaps w) {c : Char} (hc : ¬ isGap c) (rest : Text) :
  skipGaps (w ++ c :: rest) = c :: rest
  := skipGaps_append hw (stopsAt_cons.mpr hc)

theorem nextItem_first {t : Text} (h : Begins t) {w : Text} (hw : Gaps w) (rest : Text) :
  nextItem true (w ++ (t ++ rest)) = .ok (some (t ++ rest))
  := by
  rw [nextItem, h.skipGaps_append hw]
  obtain ⟨c, cs, rfl, -, hne⟩ := h
  rw [List.cons_append]
  split
  · contradiction
  · rename_i heq
    exact absurd (List.cons.inj heq).1 hne
  · rename_i heq
    rw [heq]
    rfl

theorem nextItem_next {t : Text} (h : Begins t) {v w : Text} (hv : Gaps v) (hw : Gaps w)
    (rest : Text) :
  nextItem false (v ++ ',' :: (w ++ (t ++ rest))) = .ok (some (t ++ rest))
  := by
  rw [nextItem, skipGaps_append_cons hv (by decide)]
  split
  · contradiction
  · rename_i heq
    exact absurd (List.cons.inj heq).1 (by decide)
  · rename_i heq
    obtain ⟨rfl, rfl⟩ := List.cons.inj heq
    rw [if_neg Bool.false_ne_true, if_pos rfl, h.skipGaps_append hw]
    obtain ⟨c, cs, rfl, -, hne⟩ := h
    rw [List.cons_append]
    split
    · contradiction
    · rename_i heq
      exact absurd (List.cons.inj heq).1 hne
    · rfl

theorem items_closed {α : Type} (item : JsonReader α) {fuel : Nat} (hfuel : 0 < fuel)
    (first : Bool) {w : Text} (hw : Gaps w) (rest : Text) :
  items item fuel first (w ++ ']' :: rest) = .ok ([], rest)
  := by
  cases fuel with
  | zero => contradiction
  | succ fuel =>
    rw [items, nextItem, skipGaps_append_cons hw (by decide)]
    dsimp only [bind, Except.bind]
    rw [closeArray, skipGaps_append_cons hw (by decide)]
    rfl

theorem items_step {α : Type} {item : JsonReader α} {fuel : Nat} {first : Bool}
    {t u more rest : Text} {a : α} {as : List α} (hnext : nextItem first t = .ok (some u))
    (hitem : item u = .ok (a, more)) (hmore : items item fuel false more = .ok (as, rest)) :
  items item (fuel + 1) first t = .ok (a :: as, rest)
  := by
  rw [items, hnext]
  dsimp only [bind, Except.bind]
  rw [hitem]
  dsimp only
  rw [hmore]
  rfl

/-- One item is read, at the front of an array or after a comma, and then the rest. -/
theorem items_of_reads {α : Type} {item : JsonReader α} {a : α} {t : Text} (hbegins : Begins t)
    (ha : Reads item t a) {more : Text} (hstops : StopsAt continuesNumber more) {fuel : Nat}
    {as : List α} {rest : Text} (hmore : items item fuel false more = .ok (as, rest)) {v : Text}
    (hv : Gaps v) :
  items item (fuel + 1) true (v ++ (t ++ more)) = .ok (a :: as, rest)
    ∧ ∀ ⦃u : Text⦄, Gaps u →
      items item (fuel + 1) false (u ++ ',' :: (v ++ (t ++ more))) = .ok (a :: as, rest)
  := by
  have hitem := ha gaps_nil hstops
  refine ⟨items_step (nextItem_first hbegins hv more) hitem hmore, ?_⟩
  intro u hu
  exact items_step (nextItem_next hbegins hu hv more) hitem hmore

/-- Items that can each be read are read one after another. -/
theorem items_of_separated {α : Type} {item : JsonReader α} {as : List α} {t : Text}
    (h : Separated (fun a t => Begins t ∧ Reads item t a) as t) {fuel : Nat}
    (hfuel : as.length < fuel) (rest : Text) :
  items item fuel true (t ++ ']' :: rest) = .ok (as, rest)
    ∧ ∀ ⦃u : Text⦄, Gaps u →
      items item fuel false (u ++ ',' :: (t ++ ']' :: rest)) = .ok (as, rest)
  := by
  -- Only the first item stands without a comma before it, so the induction needs both parts.
  induction h generalizing fuel with
  | one hv ha hw =>
    obtain ⟨fuel, rfl⟩ := Nat.exists_eq_succ_of_ne_zero (Nat.ne_zero_of_lt hfuel)
    have hmore := items_closed item (Nat.lt_of_succ_lt_succ hfuel) false hw rest
    rw [List.append_assoc, List.append_assoc]
    exact items_of_reads ha.1 ha.2 (stopsAt_gaps_append hw (by decide) rest) hmore hv
  | cons hv ha hw has ih =>
    obtain ⟨fuel, rfl⟩ := Nat.exists_eq_succ_of_ne_zero (Nat.ne_zero_of_lt hfuel)
    have hmore := (ih (Nat.lt_of_succ_lt_succ hfuel)).2 hw
    rw [List.append_assoc, List.append_assoc, List.append_assoc, List.cons_append]
    exact items_of_reads ha.1 ha.2 (stopsAt_gaps_append hw (by decide) _) hmore hv

theorem length_le_of_separated {α : Type} {p : α → Text → Prop} {as : List α} {t : Text}
    (h : Separated p as t) :
  as.length ≤ t.length + 1
  := by
  induction h with
  | one hv ha hw => simp
  | cons hv ha hw has ih =>
    simp only [List.length_append, List.length_cons]
    omega

theorem separated_of_map {α β : Type} {f : α → β} {p : β → Text → Prop} {q : α → Text → Prop}
    {as : List α} (hpq : ∀ a ∈ as, ∀ t : Text, p (f a) t → q a t) {t : Text}
    (h : Separated p (as.map f) t) :
  Separated q as t
  := by
  induction as generalizing t with
  | nil => contradiction
  | cons a as ih =>
    rw [List.forall_mem_cons] at hpq
    rw [List.map_cons] at h
    generalize hbs : as.map f = bs at h
    cases h with
    | one hv ha hw =>
      rw [List.map_eq_nil_iff] at hbs
      subst hbs
      exact .one hv (hpq.1 _ ha) hw
    | cons hv ha hw has =>
      subst hbs
      exact .cons hv (hpq.1 _ ha) hw (ih hpq.2 has)

theorem array_of_cons {α : Type} (item : JsonReader α) {w : Text} (hw : Gaps w) (t : Text) :
  array item (w ++ '[' :: t) = items item (t.length + 1) true t
  := by
  rw [array, skipGaps_append_cons hw (by decide)]
  rfl

/-- An array is read as the list of its items. -/
theorem reads_array {α : Type} {item : JsonReader α} {f : α → Json} {as : List α}
    (hitem : ∀ a ∈ as, ∀ t : Text, Spells (f a) t → Reads item t a) {t : Text}
    (h : Spells (.array (as.map f)) t) :
  Reads (array item) t as
  := by
  intro w rest hw hrest
  generalize hbs : as.map f = bs at h
  cases h with
  | emptyArray hv =>
    obtain rfl := List.map_eq_nil_iff.mp hbs
    rw [List.cons_append, array_of_cons item hw, List.append_assoc]
    exact items_closed item (Nat.succ_pos _) true hv rest
  | @array vs t h =>
    subst hbs
    have hread := separated_of_map (q := fun a t => Begins t ∧ Reads item t a)
      (fun a ha t ht => ⟨begins_of_spells ht, hitem a ha t ht⟩) h
    have hlength := length_le_of_separated hread
    rw [List.cons_append, array_of_cons item hw, List.append_assoc]
    apply (items_of_separated hread _ rest).1
    simp only [List.length_append, List.length_cons]
    omega

/-! ### Objects -/

theorem colon_gaps_append {w : Text} (hw : Gaps w) (rest : Text) :
  colon (w ++ ':' :: rest) = .ok rest
  := by
  rw [colon, skipGaps_append_cons hw (by decide)]
  rfl

theorem nextKey_first (key : Text) {w : Text} (hw : Gaps w) (rest : Text) :
  nextKey true (w ++ (quote key ++ rest)) = .ok (.key key rest)
  := by
  rw [quote_append, nextKey, skipGaps_append_cons hw (by decide)]
  show Except.map _ (readString _) = _
  rw [readString_escaped]
  rfl

theorem nextKey_next (key : Text) {v w : Text} (hv : Gaps v) (hw : Gaps w) (rest : Text) :
  nextKey false (v ++ ',' :: (w ++ (quote key ++ rest))) = .ok (.key key rest)
  := by
  rw [quote_append, nextKey, skipGaps_append_cons hv (by decide)]
  split
  · contradiction
  · rename_i heq
    exact absurd (List.cons.inj heq).1 (by decide)
  · rename_i heq
    obtain ⟨rfl, rfl⟩ := List.cons.inj heq
    rw [if_neg Bool.false_ne_true, if_pos rfl, skipGaps_append_cons hw (by decide)]
    show Except.map _ (readString _) = _
    rw [readString_escaped]
    rfl

section

variable {σ : Type} (member : σ → Text → Text → Except JsonFault (σ × Text))

theorem members_closed {fuel : Nat} (hfuel : 0 < fuel) (first : Bool) (s : σ) {w : Text}
    (hw : Gaps w) (rest : Text) :
  members member fuel first s (w ++ '\x7d' :: rest) = .ok (s, rest)
  := by
  cases fuel with
  | zero => contradiction
  | succ fuel =>
    rw [members, nextKey, skipGaps_append_cons hw (by decide)]
    rfl

/-- Reading a member takes one state to another, however its value is spelled. -/
def Takes (s : σ) (key : Text) (value : Json) (s' : σ) : Prop :=
  ∀ ⦃t : Text⦄, Spells value t → ∀ ⦃v w rest : Text⦄, Gaps v → Gaps w →
    StopsAt continuesNumber rest →
    member s key (v ++ ':' :: (w ++ (t ++ rest))) = .ok (s', rest)

/-- Reading members one after another takes one state to another. -/
inductive TakesAll : σ → List (Text × Json) → σ → Prop where
  | nil {s : σ} : TakesAll s [] s
  | cons {s s' s'' : σ} {key : Text} {value : Json} {ms : List (Text × Json)}
      (hm : Takes member s key value s') (hms : TakesAll s' ms s'') :
      TakesAll s ((key, value) :: ms) s''

variable {member}

theorem members_step {fuel : Nat} {first : Bool} {s s' s'' : σ} {key t u more rest : Text}
    (hnext : nextKey first t = .ok (.key key u)) (hmember : member s key u = .ok (s', more))
    (hmore : members member fuel false s' more = .ok (s'', rest)) :
  members member (fuel + 1) first s t = .ok (s'', rest)
  := by
  rw [members, hnext]
  dsimp only [bind, Except.bind]
  rw [hmember]
  exact hmore

/-- One member is read, at the front of an object or after a comma, and then the rest. -/
theorem members_of_takes {key : Text} {value : Json} {t : Text}
    (hm : SpellsMember (key, value) t) {s s' : σ} (htakes : Takes member s key value s')
    {more : Text} (hstops : StopsAt continuesNumber more) {fuel : Nat} {s'' : σ} {rest : Text}
    (hmore : members member fuel false s' more = .ok (s'', rest)) {v : Text} (hv : Gaps v) :
  members member (fuel + 1) true s (v ++ (t ++ more)) = .ok (s'', rest)
    ∧ ∀ ⦃u : Text⦄, Gaps u →
      members member (fuel + 1) false s (u ++ ',' :: (v ++ (t ++ more))) = .ok (s'', rest)
  := by
  obtain ⟨hbefore, hafter, hvalue⟩ := hm
  have hmember := htakes hvalue hbefore hafter hstops
  rw [List.append_assoc, List.append_assoc, List.cons_append, List.append_assoc]
  refine ⟨members_step (nextKey_first _ hv _) hmember hmore, ?_⟩
  intro u hu
  exact members_step (nextKey_next _ hu hv _) hmember hmore

/-- Members that can each be read are read one after another. -/
theorem members_of_separated {ms : List (Text × Json)} {t : Text}
    (h : Separated SpellsMember ms t) {s s' : σ} (htakes : TakesAll member s ms s') {fuel : Nat}
    (hfuel : ms.length < fuel) (rest : Text) :
  members member fuel true s (t ++ '\x7d' :: rest) = .ok (s', rest)
    ∧ ∀ ⦃u : Text⦄, Gaps u →
      members member fuel false s (u ++ ',' :: (t ++ '\x7d' :: rest)) = .ok (s', rest)
  := by
  induction h generalizing fuel s with
  | one hv hm hw =>
    obtain ⟨fuel, rfl⟩ := Nat.exists_eq_succ_of_ne_zero (Nat.ne_zero_of_lt hfuel)
    cases htakes with
    | cons htake hnil =>
      cases hnil
      have hmore := members_closed member (Nat.lt_of_succ_lt_succ hfuel) false s' hw rest
      rw [List.append_assoc, List.append_assoc]
      exact members_of_takes hm htake (stopsAt_gaps_append hw (by decide) rest) hmore hv
  | cons hv hm hw has ih =>
    obtain ⟨fuel, rfl⟩ := Nat.exists_eq_succ_of_ne_zero (Nat.ne_zero_of_lt hfuel)
    cases htakes with
    | cons htake htakes =>
      have hmore := (ih htakes (Nat.lt_of_succ_lt_succ hfuel)).2 hw
      rw [List.append_assoc, List.append_assoc, List.append_assoc, List.cons_append]
      exact members_of_takes hm htake (stopsAt_gaps_append hw (by decide) _) hmore hv

end

/-- The members of an object are read up to its closing brace. -/
theorem members_of_spells {σ : Type} {member : σ → Text → Text → Except JsonFault (σ × Text)}
    {m : Text × Json} {ms : List (Text × Json)} {t : Text} (h : Spells (.object (m :: ms)) t)
    {s s' : σ} (htakes : TakesAll member s (m :: ms) s') :
  ∃ u : Text, t = '\x7b' :: u ∧ ∀ rest : Text,
    members member ((u ++ rest).length + 1) true s (u ++ rest) = .ok (s', rest)
  := by
  cases h with
  | @object _ t h =>
    refine ⟨t ++ ['\x7d'], rfl, ?_⟩
    intro rest
    have hlength := length_le_of_separated h
    rw [List.append_assoc]
    apply (members_of_separated h htakes _ rest).1
    simp only [List.length_append, List.length_cons] at hlength ⊢
    omega

/-- A record that is spelled as an object is read as one. -/
theorem reads_record {α : Type} {ofObject ofArray : JsonReader α} {t : Text} {a : α}
    (h : ∃ u : Text, t = '\x7b' :: u ∧ ∀ rest : Text, ofObject (u ++ rest) = .ok (a, rest)) :
  Reads (record ofObject ofArray) t a
  := by
  obtain ⟨u, rfl, hread⟩ := h
  intro w rest hw _
  rw [List.cons_append, record, skipGaps_append_cons hw (by decide)]
  exact hread rest

theorem whole_of_reads {α : Type} {reader : JsonReader α} {t : Text} {a : α}
    (h : Reads reader t a) :
  whole reader t = .ok a
  := by
  have hread := h gaps_nil (stopsAt_nil continuesNumber)
  rw [List.nil_append, List.append_nil] at hread
  rw [whole, hread]
  rfl

end JsonReader

end CartTokens
