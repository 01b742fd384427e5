import CartTokens.Format
import Mathlib.Data.List.Forall2

/-!
# Reading separated values

A reader of values separated by commas goes through a text character by character
(`Csv.step`).  A comma ends a field and a line break ends a record; a field that begins with a
quotation mark runs up to the mark that matches it, and two marks inside it stand for one.

Each field of a report is written so that the reader takes it for what it is (`Csv.Writes`),
whatever characters a name has, and therefore the reader gives back the records of the report
(`Csv.read_render`).
-/

namespace CartTokens

namespace Csv

open Text

/-! ### The reader -/

/-- Where a reader stands. -/
inductive Place where
  /-- Before the first character of a field. -/
  | start
  /-- In a field that did not begin with a quotation mark. -/
  | plain
  /-- In a field that began with a quotation mark. -/
  | quoted
  /-- In such a field after a mark, which is its end unless another mark follows. -/
  | closing
  /-- After something that cannot follow the end of a field. -/
  | malformed
  deriving DecidableEq, Repr

/-- A field may end here. -/
def Place.mayEnd : Place → Bool
  | .start | .plain | .closing => true
  | .quoted | .malformed => false

/-- What a reader has read. -/
structure State where
  /-- The records before this one. -/
  records : List (List Text) := []
  /-- The fields of this record before this one. -/
  fields : List Text := []
  /-- The characters of this field. -/
  field : Text := []
  place : Place := .start

namespace State

/-- The record as far as it is read. -/
def record (s : State) : List Text :=
  s.fields ++ [s.field]

/-- A character of the field. -/
def add (s : State) (c : Char) (place : Place) : State :=
  { s with field := s.field ++ [c], place := place }

/-- A character outside of quotation marks. -/
def next (s : State) (c : Char) : State :=
  if c = ',' then { records := s.records, fields := s.record }
  else if c = '\n' then { records := s.records ++ [s.record] }
  else s.add c .plain

end State

/-- One more character is read. -/
def step (s : State) (c : Char) : State :=
  match s.place with
  | .start => if c = '\x22' then { s with place := .quoted } else s.next c
  | .plain => s.next c
  | .quoted => if c = '\x22' then { s with place := .closing } else s.add c .quoted
  | .closing =>
    if c = '\x22' then s.add c .quoted
    else if c = ',' || c = '\n' then s.next c
    else { s with place := .malformed }
  | .malformed => s

/-- The records at the end of the text, if it may end there. -/
def State.finish (s : State) : Option (List (List Text)) :=
  if s.place.mayEnd then some (s.records ++ [s.record]) else none

/-- Reads records of fields. -/
def read (t : Text) : Option (List (List Text)) :=
  (t.foldl step {}).finish

/-! ### Fields -/

section

variable {s : State} (h : s.place.mayEnd)

include h

/-- Where a field may end, a separator is read as one. -/
theorem step_separator {c : Char} (hc : c = ',' ∨ c = '\n') :
  step s c = s.next c
  := by
  have hquote : c ≠ '\x22' := by
    rintro rfl
    exact absurd hc (by decide)
  rw [step]
  cases hplace : s.place with
  | start => apply if_neg hquote
  | plain => rfl
  | closing =>
    have hsep : (decide (c = ',') || decide (c = '\n')) = true := by simpa using hc
    exact (if_neg hquote).trans (if_pos hsep)
  | quoted =>
    rw [hplace] at h
    exact absurd h (by decide)
  | malformed =>
    rw [hplace] at h
    exact absurd h (by decide)

theorem step_comma :
  step s ',' = { records := s.records, fields := s.record }
  := step_separator h (.inl rfl)

theorem step_break :
  step s '\n' = { records := s.records ++ [s.record] }
  := step_separator h (.inr rfl)

end

section

variable (records : List (List Text)) (fields : List Text)

theorem step_plain {c : Char} (hcomma : c ≠ ',') (hbreak : c ≠ '\n') (field : Text) :
  step ⟨records, fields, field, .plain⟩ c = ⟨records, fields, field ++ [c], .plain⟩
  := by
  rw [step, State.next, if_neg hcomma, if_neg hbreak]
  rfl

theorem foldl_plain {t : Text} (hcomma : ',' ∉ t) (hbreak : '\n' ∉ t) (field : Text) :
  t.foldl step ⟨records, fields, field, .plain⟩ = ⟨records, fields, field ++ t, .plain⟩
  := by
  induction t generalizing field with
  | nil => rw [List.append_nil, List.foldl_nil]
  | cons c t ih =>
    rw [List.mem_cons, not_or] at hcomma hbreak
    rw [List.foldl_cons, step_plain _ _ (Ne.symm hcomma.1) (Ne.symm hbreak.1), ih hcomma.2 hbreak.2,
      List.append_assoc, List.singleton_append]

theorem step_quoted {c : Char} (hquote : c ≠ '\x22') (field : Text) :
  step ⟨records, fields, field, .quoted⟩ c = ⟨records, fields, field ++ [c], .quoted⟩
  := if_neg hquote

/-- Inside quotation marks, two marks are read as one and all else as it is. -/
theorem foldl_doubled (t field : Text) :
  (t.flatMap fun c => if c = '\x22' then ['\x22', '\x22'] else [c]).foldl step
      ⟨records, fields, field, .quoted⟩
    = ⟨records, fields, field ++ t, .quoted⟩
  := by
  induction t generalizing field with
  | nil => rw [List.append_nil, List.flatMap_nil, List.foldl_nil]
  | cons c t ih =>
    have hchar : (if c = '\x22' then ['\x22', '\x22'] else [c]).foldl step
        ⟨records, fields, field, .quoted⟩ = ⟨records, fields, field ++ [c], .quoted⟩ := by
      by_cases hc : c = '\x22'
      · subst hc
        rfl
      · rw [if_neg hc, List.foldl_cons, List.foldl_nil, step_quoted _ _ hc]
    rw [List.flatMap_cons, List.foldl_append, hchar, ih, List.append_assoc, List.singleton_append]

/-- The first text is the second as a field: as it is, or in quotation marks. -/
inductive Writes : Text → Text → Prop
  | plain {t : Text} (hcomma : ',' ∉ t) (hbreak : '\n' ∉ t) (hquote : t.head? ≠ some '\x22') :
      Writes t t
  | quoted (t : Text) : Writes (Separator.quote t) t

/-- A field is read as what it is written for, and may end where it does. -/
theorem Writes.foldl {t field : Text} (h : Writes t field) :
  ∃ place : Place, place.mayEnd
    ∧ t.foldl step ⟨records, fields, [], .start⟩ = ⟨records, fields, field, place⟩
  := by
  cases h with
  | plain hcomma hbreak hquote =>
    cases t with
    | nil => exact ⟨.start, rfl, rfl⟩
    | cons c t =>
      have hstart : step ⟨records, fields, [], .start⟩ c
          = step ⟨records, fields, [], .plain⟩ c := by
        apply if_neg
        rintro rfl
        exact hquote rfl
      use .plain, rfl
      rw [List.foldl_cons, hstart, ← List.foldl_cons, foldl_plain _ _ hcomma hbreak]
      rfl
  | quoted =>
    use .closing, rfl
    rw [Separator.quote, List.cons_append, List.foldl_cons, List.foldl_append]
    have hopened : step ⟨records, fields, [], .start⟩ '\x22' = ⟨records, fields, [], .quoted⟩ := rfl
    rw [hopened, foldl_doubled]
    rfl

end

theorem writes_of_forall {t : Text} (h : ∀ c ∈ t, c ≠ ',' ∧ c ≠ '\n' ∧ c ≠ '\x22') :
  Writes t t
  := by
  apply Writes.plain
  · exact fun hmem => (h _ hmem).1 rfl
  · exact fun hmem => (h _ hmem).2.1 rfl
  · exact fun hhead => (h _ (List.mem_of_head? hhead)).2.2 rfl

theorem writes_field (name : Text) :
  Writes (Separator.comma.field name) name
  := by
  rw [Separator.field]
  split
  · apply Writes.quoted
  · rename_i hplain
    rw [Separator.needsQuotes, Bool.or_eq_true, Bool.or_eq_true, not_or, not_or,
      List.contains_iff_mem, List.contains_iff_mem, List.contains_iff_mem] at hplain
    obtain ⟨⟨hcomma, hquote⟩, hbreak⟩ := hplain
    apply writes_of_forall
    intro c hc
    refine ⟨?_, ?_, ?_⟩ <;> rintro rfl
    · exact hcomma hc
    · exact hbreak hc
    · exact hquote hc

theorem forall_mem_ofNat (n : Nat) :
  ∀ c ∈ ofNat n, c ≠ ',' ∧ c ≠ '\n' ∧ c ≠ '\x22'
  := by
  intro c hc
  have hdigit := isDigit_of_mem_ofNat hc
  refine ⟨?_, ?_, ?_⟩ <;> rintro rfl <;> exact absurd hdigit (by decide)

theorem writes_ofNat (n : Nat) :
  Writes (ofNat n) (ofNat n)
  := writes_of_forall (forall_mem_ofNat n)

theorem writes_ofInt (n : Int) :
  Writes (ofInt n) (ofInt n)
  := by
  cases n with
  | ofNat n => apply writes_ofNat
  | negSucc n =>
    apply writes_of_forall
    rw [ofInt, List.forall_mem_cons]
    use by decide, forall_mem_ofNat (n + 1)

/-! ### Records -/

/-- The line is read as the record. -/
def WritesRecord (line : Text) (record : List Text) : Prop :=
  ∀ records : List (List Text), ∃ s : State,
    line.foldl step { records := records } = s ∧ s.place.mayEnd ∧ s.records = records
      ∧ s.record = record

theorem writesRecord_record {t field t' field' : Text} (h : Writes t field)
    (h' : Writes t' field') :
  WritesRecord (Separator.comma.record t t') [field, field']
  := by
  intro records
  obtain ⟨place, hend, hread⟩ := h.foldl records []
  obtain ⟨place', hend', hread'⟩ := h'.foldl records [field]
  refine ⟨⟨records, [field], field', place'⟩, ?_, hend', rfl, rfl⟩
  have hcomma : step ⟨records, [], field, place⟩ ',' = ⟨records, [field], [], .start⟩ :=
    step_comma hend
  rw [Separator.record, List.foldl_append, List.foldl_append, hread, Separator.char,
    List.foldl_cons, List.foldl_nil, hcomma, hread']

/-- Records on lines of their own are read one after another. -/
theorem finish_foldl_join {lines : List Text} {records : List (List Text)}
    (h : List.Forall₂ WritesRecord lines records) (hne : lines ≠ [])
    (before : List (List Text)) :
  ((join ['\n'] lines).foldl step { records := before }).finish = some (before ++ records)
  := by
  induction h generalizing before with
  | nil => exact absurd rfl hne
  | @cons line record lines records hline hlines ih =>
    obtain ⟨s, hread, hend, hrecords, hrecord⟩ := hline before
    by_cases hlast : lines = []
    · subst hlast
      rw [List.forall₂_nil_left_iff.mp hlines, join, List.intercalate_singleton, hread,
        State.finish, if_pos hend, hrecords, hrecord]
    · have hrest := ih hlast (before ++ [record])
      rw [List.append_assoc, List.singleton_append] at hrest
      rw [join, List.intercalate_cons_of_ne_nil hlast, List.foldl_append, List.foldl_append,
        hread, List.foldl_cons, List.foldl_nil, step_break hend, hrecords, hrecord]
      apply hrest

theorem writesRecord_files (files : List Entry) :
  List.Forall₂ WritesRecord
    (files.map fun e => Separator.comma.record (ofNat e.tokens) (Separator.comma.field e.name))
    (files.map fun e => [ofNat e.tokens, e.name])
  := by
  rw [List.forall₂_map_left_iff, List.forall₂_map_right_iff, List.forall₂_same]
  intro e _
  apply writesRecord_record (writes_ofNat e.tokens) (writes_field e.name)

/-- Values separated by commas are read back: a record with the two headings, one with the tokens
and the name of each file, in order, and two with the total and what remains. -/
theorem read_render (r : Report) (spec : SortSpec) :
  read (r.render .csv spec)
    = some (["tokens".toList, "name".toList]
        :: (spec.sort r.files).map (fun e => [ofNat e.tokens, e.name])
        ++ [[ofNat r.total, "TOTAL".toList], [ofInt r.remaining, "REMAINING".toList]])
  := by
  have htokens : Writes "tokens".toList "tokens".toList :=
    .plain (by decide) (by decide) (by decide)
  have hname : Writes "name".toList "name".toList := .plain (by decide) (by decide) (by decide)
  have htotal : Writes "TOTAL".toList "TOTAL".toList := .plain (by decide) (by decide) (by decide)
  have hremaining : Writes "REMAINING".toList "REMAINING".toList :=
    .plain (by decide) (by decide) (by decide)
  apply finish_foldl_join _ (List.cons_ne_nil _ _)
  apply List.Forall₂.cons (writesRecord_record htokens hname)
  apply List.rel_append (writesRecord_files (spec.sort r.files))
  apply List.Forall₂.cons (writesRecord_record (writes_ofNat r.total) htotal)
  apply List.Forall₂.cons (writesRecord_record (writes_ofInt r.remaining) hremaining)
  apply List.Forall₂.nil

example : read (Report.render ⟨5, 4, -1, [.ofName "a,\x22b\x22\n".toList 5]⟩ .csv SortSpec.byName)
    = some [["tokens".toList, "name".toList], ["5".toList, "a,\x22b\x22\n".toList],
      ["5".toList, "TOTAL".toList], ["-1".toList, "REMAINING".toList]] := by
  decide +kernel

end Csv

end CartTokens
