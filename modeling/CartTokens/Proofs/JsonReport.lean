import CartTokens.Format
import CartTokens.Proofs.JsonReader
import CartTokens.Proofs.Order

/-!
# Reports as JSON, read back

The members of entries and of reports are read one after another (`Entry.takesAll_members`,
`Report.takesAll_members`), so a report is read from every spelling of it
(`Report.ofJson_of_spells`), and from the two forms it is written in (`Report.ofJson_toJson`).
-/

namespace CartTokens

namespace JsonReader

open Lexeme Json

theorem readOnce_of_reads {α : Type} {reader : JsonReader α} {t : Text} {a : α}
    (h : Reads reader t a) {v w rest : Text} (hv : Gaps v) (hw : Gaps w)
    (hrest : StopsAt continuesNumber rest) :
  readOnce none reader (v ++ ':' :: (w ++ (t ++ rest))) = .ok (some a, rest)
  := by
  have hread := h hw hrest
  rw [readOnce, Option.isSome_none, if_neg Bool.false_ne_true, colon_gaps_append hv]
  dsimp only [bind, Except.bind]
  rw [hread]
  rfl

/-- A member that is read once sets its field. -/
theorem takes_of_readOnce {σ α : Type} {member : σ → Text → Text → Except JsonFault (σ × Text)}
    {s : σ} {key : Text} {reader : JsonReader α} (set : Option α → σ)
    (hmember : ∀ t : Text,
      member s key t = readOnce none reader t >>= fun read => pure (set read.1, read.2))
    {value : Json} {a : α} (hreads : ∀ t : Text, Spells value t → Reads reader t a) :
  Takes member s key value (set (some a))
  := by
  intro t ht v w rest hv hw hrest
  rw [hmember, readOnce_of_reads (hreads t ht) hv hw hrest]
  rfl

end JsonReader

open JsonReader Json

/-! ### Entries -/

namespace EntryFields

variable {f : EntryFields}

theorem takes_name (h : f.name = none) (name : Text) :
  Takes member f "name".toList (.string name) { f with name := some name }
  := by
  refine takes_of_readOnce (fun name => { f with name := name }) ?_ fun t => reads_string
  intro t
  rw [member, if_pos rfl, h]

theorem takes_tokens (h : f.tokens = none) {tokens : Nat} (htokens : tokens ≤ maxUnsigned) :
  Takes member f "tokens".toList (.number tokens) { f with tokens := some tokens }
  := by
  refine takes_of_readOnce (fun tokens => { f with tokens := tokens }) ?_ fun t =>
    reads_unsigned htokens
  intro t
  rw [member, if_neg (by decide), if_pos rfl, h]

theorem takes_path (h : f.path = none) (path : Text) :
  Takes member f "path".toList (.string path) { f with path := some (some path) }
  := by
  refine takes_of_readOnce (fun path => { f with path := path }) ?_ fun t =>
    reads_nullable_string
  intro t
  rw [member, if_neg (by decide), if_neg (by decide), if_pos rfl, h]

end EntryFields

/-- The members of an entry are read one after another. -/
theorem Entry.takesAll_members (e : Entry) (h : e.tokens ≤ maxUnsigned) :
  TakesAll EntryFields.member {} e.members
    ⟨some e.name, some e.tokens, e.path.map fun path => some path.text⟩
  := by
  obtain ⟨name, tokens, path⟩ := e
  apply TakesAll.cons (EntryFields.takes_name rfl name)
  apply TakesAll.cons (EntryFields.takes_tokens rfl h)
  cases path with
  | none => apply TakesAll.nil
  | some path => apply TakesAll.cons (EntryFields.takes_path rfl path.text) .nil

/-- An entry is read from an object whose members give its fields. -/
theorem reads_readEntry_of_takesAll {e : Entry} {m : Text × Json} {ms : List (Text × Json)}
    (htakes : TakesAll EntryFields.member {} (m :: ms)
      ⟨some e.name, some e.tokens, e.path.map fun path => some path.text⟩) {t : Text}
    (h : Spells (.object (m :: ms)) t) :
  Reads readEntry t e
  := by
  apply reads_record
  obtain ⟨u, rfl, hmembers⟩ := members_of_spells h htakes
  refine ⟨u, rfl, ?_⟩
  intro rest
  rw [readEntryObject, hmembers rest]
  obtain ⟨name, tokens, path⟩ := e
  cases path <;> rfl

theorem reads_readEntry {e : Entry} (he : e.tokens ≤ maxUnsigned) {t : Text}
    (h : Spells e.toJson t) :
  Reads readEntry t e
  := reads_readEntry_of_takesAll (e.takesAll_members he) h

/-! ### Reports -/

/-- The numbers of a report are integers of 64 bits. -/
structure Report.Fits (r : Report) : Prop where
  total_le : r.total ≤ maxUnsigned
  limit_le : r.limit ≤ maxUnsigned
  le_remaining : -(maxSigned : Int) - 1 ≤ r.remaining
  remaining_le : r.remaining ≤ maxSigned
  tokens_le : ∀ e ∈ r.files, e.tokens ≤ maxUnsigned

namespace Report

/-- The members of a report are read one after another. -/
theorem takesAll_members {r : Report} (h : r.Fits) :
  TakesAll ReportFields.member {}
    [("total".toList, .number r.total), ("limit".toList, .number r.limit),
      ("remaining".toList, .number r.remaining),
      ("files".toList, .array (r.files.map Entry.toJson))]
    ⟨some r.total, some r.limit, some r.remaining, some r.files⟩
  := by
  refine .cons (takes_of_readOnce (fun total => ⟨total, none, none, none⟩) ?_ fun t =>
    reads_unsigned h.total_le) ?_
  · intro t
    rw [ReportFields.member, if_pos rfl]
  refine .cons (takes_of_readOnce (fun limit => ⟨some r.total, limit, none, none⟩) ?_ fun t =>
    reads_unsigned h.limit_le) ?_
  · intro t
    rw [ReportFields.member, if_neg (by decide), if_pos rfl]
  refine .cons (takes_of_readOnce (fun remaining => ⟨some r.total, some r.limit, remaining, none⟩)
    ?_ fun t => reads_signed h.le_remaining h.remaining_le) ?_
  · intro t
    rw [ReportFields.member, if_neg (by decide), if_neg (by decide), if_pos rfl]
  refine .cons (takes_of_readOnce (fun files => ⟨some r.total, some r.limit, some r.remaining,
    files⟩) ?_ fun t => reads_array fun e he t => reads_readEntry (h.tokens_le e he)) .nil
  intro t
  rw [ReportFields.member, if_neg (by decide), if_neg (by decide), if_neg (by decide),
    if_pos rfl]

/-- A report is read from every spelling of it. -/
theorem ofJson_of_spells {r : Report} (hr : r.Fits) {t : Text} (h : Spells r.toJson t) :
  ofJson t = .ok r
  := by
  apply whole_of_reads
  apply reads_record
  obtain ⟨u, rfl, hmembers⟩ := members_of_spells h (takesAll_members hr)
  refine ⟨u, rfl, ?_⟩
  intro rest
  rw [readReportObject, hmembers rest]
  rfl

theorem sorted_nil (r : Report) :
  r.sorted [] = r
  := by
  rw [sorted, SortSpec.sort_nil]

/-- A report is read back from its two forms. -/
theorem ofJson_toJson {r : Report} (h : r.Fits) :
  ofJson r.toJson.compact = .ok r ∧ ofJson (r.render .json []) = .ok r
  := by
  refine ⟨ofJson_of_spells h (spells_compact r.toJson), ?_⟩
  rw [render, sorted_nil]
  exact ofJson_of_spells h (spells_indented 0 r.toJson)

theorem ofJson_toJson_extreme :
  Fits ⟨maxUnsigned, 0, -maxSigned - 1, [⟨"\x22\\\n\x01\u2028😀".toList, maxUnsigned, none⟩,
      ⟨[], 0, some ⟨"a/é\t".toList⟩⟩]⟩
    ∧ ofJson (toJson ⟨maxUnsigned, 0, -maxSigned - 1,
        [⟨"\x22\\\n\x01\u2028😀".toList, maxUnsigned, none⟩,
          ⟨[], 0, some ⟨"a/é\t".toList⟩⟩]⟩).compact
      = .ok ⟨maxUnsigned, 0, -maxSigned - 1,
        [⟨"\x22\\\n\x01\u2028😀".toList, maxUnsigned, none⟩,
          ⟨[], 0, some ⟨"a/é\t".toList⟩⟩]⟩
  := by
  have hfits : Fits ⟨maxUnsigned, 0, -maxSigned - 1,
      [⟨"\x22\\\n\x01\u2028😀".toList, maxUnsigned, none⟩,
        ⟨[], 0, some ⟨"a/é\t".toList⟩⟩]⟩ :=
    ⟨Nat.le_refl _, Nat.zero_le _, Int.le_refl _, by decide, by decide⟩
  exact ⟨hfits, (ofJson_toJson hfits).1⟩

end Report

end CartTokens
