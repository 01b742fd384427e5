import CartTokens.Proofs.ContentLines
import CartTokens.Proofs.JsonReport
import CartTokens.Proofs.JsonValue
import CartTokens.Proofs.Order

/-!
# Reading JSON lines

A report in JSON lines falls into as many lines as it has entries, and one more
(`JsonLines.parts_render_eq`), since no value in one line has a line break in it.  The line of an
entry is an object of type `file` (`JsonLines.IsFileLine`): the reader of entries takes it for the
entry and skips its type.  The last line is an object of type `total` (`JsonLines.IsTotalLine`).
-/

namespace CartTokens

namespace JsonReader

open Text Lexeme Json

/-! ### Skipping a string -/

theorem skipString_quote (t : Text) :
  skipString ('\x22' :: t) = .ok t
  := by
  rw [skipString.eq_def]
  rfl

theorem skipString_plain {c : Char} (hquote : c ≠ '\x22') (hslash : c ≠ '\\')
    (hplain : ¬ c.toNat < 0x20) (t : Text) :
  skipString (c :: t) = skipString t
  := by
  rw [skipString.eq_def]
  exact (if_neg hquote).trans ((if_neg hslash).trans (if_neg hplain))

theorem skipString_letter {d : Char} (hd : d ≠ 'u') (h : (shortEscape? d).isSome) (t : Text) :
  skipString ('\\' :: d :: t) = skipString t
  := by
  rw [skipString.eq_def]
  exact (if_neg hd).trans (if_pos h)

theorem skipString_digits {ds : Text} {n : Nat} (h : fourDigits ds = .ok n) :
  skipString ('\\' :: 'u' :: ds) = skipString (ds.drop 4)
  := by
  rw [skipString.eq_def]
  dsimp only
  rw [if_neg (by decide), if_pos rfl, if_pos rfl, h]

/-- A character is skipped as it is written. -/
theorem skipString_escape (c : Char) (t : Text) :
  skipString (escape c ++ t) = skipString t
  := by
  obtain ⟨d, hescape, hd, hc⟩ | ⟨hcontrol, hescape⟩ | ⟨hquote, hslash, hplain, hescape⟩ :=
    escape_cases c
  · rw [hescape]
    apply skipString_letter hd (Option.isSome_of_eq_some hc)
  · rw [hescape]
    apply skipString_digits (fourDigits_hexDigit hcontrol t)
  · rw [hescape]
    apply skipString_plain hquote hslash hplain

theorem skipString_escaped (t rest : Text) :
  skipString (t.flatMap escape ++ '\x22' :: rest) = .ok rest
  := by
  induction t with
  | nil => rw [List.flatMap_nil, List.nil_append, skipString_quote]
  | cons c t ih => rw [List.flatMap_cons, List.append_assoc, skipString_escape, ih]

theorem skipValue_quote (fuel : Nat) (s : Text) {w : Text} (hw : Gaps w) (rest : Text) :
  skipValue (fuel + 1) (w ++ (quote s ++ rest)) = .ok rest
  := by
  rw [quote_append, skipValue, skipGaps_append_cons hw (by decide)]
  exact skipString_escaped s rest

end JsonReader

open JsonReader Json

/-- A member of an entry that is none of its fields is skipped. -/
theorem EntryFields.takes_unknown (f : EntryFields) {key : Text} (hname : key ≠ "name".toList)
    (htokens : key ≠ "tokens".toList) (hpath : key ≠ "path".toList) (s : Text) :
  Takes EntryFields.member f key (.string s) f
  := by
  intro t ht v w rest hv hw _
  cases ht
  rw [EntryFields.member, if_neg hname, if_neg htokens, if_neg hpath, skipMember,
    colon_gaps_append hv]
  dsimp only [bind, Except.bind]
  rw [skipValue_quote _ s hw]
  rfl

namespace JsonLines

open Text Json JsonReader

/-! ### Lines -/

/-- The line is an object of type `file` that is read as the entry.  It has the name, the tokens,
and the path if the entry has one, and no key stands in it twice. -/
def IsFileLine (line : Text) (e : Entry) : Prop :=
  whole readEntry line = .ok e
    ∧ ∃ ms : List (Text × Json), Json.read line = .ok (.object ms)
      ∧ (ms.map Prod.fst).Nodup
      ∧ ("type".toList, .string "file".toList) ∈ ms
      ∧ ("name".toList, .string e.name) ∈ ms
      ∧ ("tokens".toList, .number e.tokens) ∈ ms
      ∧ ∀ v : Json, ("path".toList, v) ∈ ms ↔ ∃ p : Path, e.path = some p ∧ v = .string p.text

/-- The line is an object of type `total` with the numbers of the report, and no key stands in it
twice. -/
def IsTotalLine (line : Text) (r : Report) : Prop :=
  ∃ ms : List (Text × Json), Json.read line = .ok (.object ms)
    ∧ (ms.map Prod.fst).Nodup
    ∧ ("type".toList, .string "total".toList) ∈ ms
    ∧ ("files".toList, .number r.files.length) ∈ ms
    ∧ ("tokens".toList, .number r.total) ∈ ms
    ∧ ("limit".toList, .number r.limit) ∈ ms
    ∧ ("remaining".toList, .number r.remaining) ∈ ms

/-- The members of the object of an entry are read one after another. -/
theorem takesAll_file (e : Entry) (h : e.tokens ≤ maxUnsigned) :
  TakesAll EntryFields.member {}
    (("name".toList, .string e.name)
      :: ((e.path.map fun p => ("path".toList, Json.string p.text)).toList
        ++ [("tokens".toList, .number e.tokens), ("type".toList, .string "file".toList)]))
    ⟨some e.name, some e.tokens, e.path.map fun path => some path.text⟩
  := by
  obtain ⟨name, tokens, path⟩ := e
  apply TakesAll.cons (EntryFields.takes_name rfl name)
  cases path with
  | none =>
    apply TakesAll.cons (EntryFields.takes_tokens rfl h)
    apply TakesAll.cons (EntryFields.takes_unknown _ (by decide) (by decide) (by decide) _) .nil
  | some path =>
    apply TakesAll.cons (EntryFields.takes_path rfl path.text)
    apply TakesAll.cons (EntryFields.takes_tokens rfl h)
    apply TakesAll.cons (EntryFields.takes_unknown _ (by decide) (by decide) (by decide) _) .nil

theorem whole_readEntry_file {e : Entry} (he : e.tokens ≤ maxUnsigned) :
  whole readEntry (file e).compact = .ok e
  := by
  apply whole_of_reads
  apply reads_readEntry_of_takesAll (takesAll_file e he) (spells_compact (file e))

theorem isFileLine_file {e : Entry} (he : e.tokens ≤ maxUnsigned) :
  IsFileLine (file e).compact e
  := by
  refine ⟨whole_readEntry_file he, _, read_compact (file e), ?_⟩
  obtain ⟨name, tokens, path⟩ := e
  cases path with
  | none =>
    refine ⟨?_, by simp, by simp, by simp, ?_⟩
    · show ["name".toList, "tokens".toList, "type".toList].Nodup
      decide
    · simp
  | some path =>
    refine ⟨?_, by simp, by simp, by simp, ?_⟩
    · show ["name".toList, "path".toList, "tokens".toList, "type".toList].Nodup
      decide
    · simp

theorem isTotalLine_total (r : Report) (spec : SortSpec) :
  IsTotalLine (total (r.sorted spec)).compact r
  := by
  have hlength : (spec.sort r.files).length = r.files.length := List.length_mergeSort _
  refine ⟨_, read_compact (total (r.sorted spec)), ?_⟩
  rw [Report.sorted, hlength]
  refine ⟨?_, by simp, by simp, by simp, by simp, by simp⟩
  show ["files".toList, "limit".toList, "remaining".toList, "tokens".toList, "type".toList,
    "version".toList].Nodup
  decide

/-- A report falls into the lines of its entries in order and the line of the total. -/
theorem parts_render_eq (r : Report) (spec : SortSpec) :
  parts '\n' (r.render .jsonLines spec)
    = (spec.sort r.files).map (fun e => (file e).compact) ++ [(total (r.sorted spec)).compact]
  := by
  rw [parts_eq_splitOn]
  apply List.splitOn_intercalate
  · intro line hline
    rw [List.mem_append, List.mem_map, List.mem_singleton] at hline
    rcases hline with ⟨e, -, rfl⟩ | rfl
    · apply newline_notMem_compact
    · apply newline_notMem_compact
  · apply List.append_ne_nil_of_right_ne_nil _ (List.cons_ne_nil _ _)

/-- A report in JSON lines has one line for each entry and a last one.  The lines of the entries
come in order, each of them an object that is read as its entry, and the last line is an object with
the numbers of the report, whatever characters names and paths hold. -/
theorem one_record_per_line (r : Report) (h : ∀ e ∈ r.files, e.tokens ≤ maxUnsigned)
    (spec : SortSpec) :
  (parts '\n' (r.render .jsonLines spec)).length = r.files.length + 1
    ∧ (∀ (i : Nat) (e : Entry), (spec.sort r.files)[i]? = some e →
        ∃ line, (parts '\n' (r.render .jsonLines spec))[i]? = some line ∧ IsFileLine line e)
    ∧ ∃ line, (parts '\n' (r.render .jsonLines spec)).getLast? = some line ∧ IsTotalLine line r
  := by
  have hsort := (spec.stableSort_sort r.files).perm
  rw [parts_render_eq]
  refine ⟨?_, ?_, ?_⟩
  · rw [List.length_append, List.length_map, hsort.length_eq, List.length_singleton]
  · intro i e he
    have hmem : e ∈ r.files := hsort.mem_iff.mp (List.mem_of_getElem? he)
    use (file e).compact
    constructor
    · rw [List.getElem?_append_left, List.getElem?_map, he, Option.map_some]
      rw [List.length_map]
      apply (List.getElem?_eq_some_iff.mp he).1
    · apply isFileLine_file (h e hmem)
  · use (total (r.sorted spec)).compact, List.getLast?_concat
    apply isTotalLine_total

/-- A name with a line break, a quotation mark and a control character. -/
theorem one_record_per_line_escaped :
  ∃ e : Entry, e.name = "a\n\x22,\x01".toList ∧ e.tokens = maxUnsigned
    ∧ (parts '\n' (Report.render ⟨e.tokens, 1, 0, [e]⟩ .jsonLines [])).length = 2
    ∧ ∃ line, (parts '\n' (Report.render ⟨e.tokens, 1, 0, [e]⟩ .jsonLines []))[0]? = some line
      ∧ IsFileLine line e
  := by
  let e : Entry := ⟨"a\n\x22,\x01".toList, maxUnsigned, some ⟨"/\r\n".toList⟩⟩
  have hfits : ∀ f ∈ [e], f.tokens ≤ maxUnsigned := List.forall_mem_singleton.mpr (Nat.le_refl _)
  have hlines := one_record_per_line ⟨e.tokens, 1, 0, [e]⟩ hfits []
  have hfirst : (SortSpec.sort [] [e])[0]? = some e := by
    rw [SortSpec.sort_nil]
    rfl
  use e, rfl, rfl, hlines.1
  apply hlines.2.1 0 e hfirst

end JsonLines

end CartTokens
