import CartTokens.Bundle
import CartTokens.Proofs.Section
import Mathlib.Data.List.Induction
import Mathlib.Data.List.Nodup

/-!
# Combined cartridges

A combination succeeds only if no section besides code is in two sources
(`Bundle.of_combine_eq_ok`).  Its lines are the header, the tabs and the sections, each under its
marker, and a section is found in them as far as its name is no other line
(`Bundle.body?_split_assemble_eq_some`, `Bundle.body?_split_assemble_eq_none`).

So a section of the sources is that of the combination (`Bundle.body?_split_combine`), as long as
what is written of the sources keeps it (`Bundle.Source.Keeps`).  Trimming can make a marker of a
line that was none, and then code turns up in another section
(`Bundle.body?_split_combine_indented_marker`).
-/

namespace CartTokens

namespace Section

open Text

/-! ### Sections one after another -/

/-- A section as it is written below other text. -/
def written (s : Section) : Text :=
  '\n' :: s.name ++ '\n' :: trim s.body

/-- No line of the text begins a section. -/
def NoMarker (t : Text) : Prop :=
  ∀ line ∈ lines t, ¬ isMarker line

instance (t : Text) : Decidable (NoMarker t) :=
  inferInstanceAs (Decidable (∀ line ∈ lines t, ¬ isMarker line))

theorem ne_nil_of_isMarker {line : Text} (h : isMarker line) :
  line ≠ []
  := by
  rintro rfl
  contradiction

theorem not_mem_of_isMarker {line : Text} (h : isMarker line) {c : Char} (hc : ¬ isWordChar c) :
  c ∉ line
  := by
  rw [isMarker, Bool.and_eq_true, List.all_eq_true] at h
  exact fun hmem => hc (h.2 c hmem)

section

variable {t : Text} (ht : EndsSolid t)

include ht

/-- A section below a text is a line with its name and the lines of its body. -/
theorem lines_append_written {s : Section} (hs : isMarker s.name) (ss : List Section) :
  lines (t ++ (s :: ss).flatMap written)
    = above t ++ s.name :: lines (trim s.body ++ ss.flatMap written)
  := by
  have hline : '\n' ∉ s.name := not_mem_of_isMarker hs (by decide +kernel)
  have hlast : s.name.getLast? ≠ some '\r' := fun hlast =>
    not_mem_of_isMarker hs (by decide +kernel) (List.mem_of_getLast? hlast)
  have hshape : t ++ (s :: ss).flatMap written
      = t ++ '\n' :: (s.name ++ '\n' :: (trim s.body ++ ss.flatMap written)) := by
    rw [List.flatMap_cons, written]
    simp
  rw [hshape, ht.lines_append_break, lines_append_break hline, chomp_append_break hlast]

/-- The lines of sections below a text. -/
theorem of_mem_lines_append_written {ss : List Section} (hss : ∀ s ∈ ss, isMarker s.name)
    {line : Text} (h : line ∈ lines (t ++ ss.flatMap written)) :
  line = [] ∨ line ∈ lines t ∨ ∃ s ∈ ss, line = s.name ∨ line ∈ lines (trim s.body)
  := by
  induction ss generalizing t with
  | nil =>
    rw [List.flatMap_nil, List.append_nil] at h
    exact .inr (.inl h)
  | cons s ss ih =>
    rw [List.forall_mem_cons] at hss
    rw [lines_append_written ht hss.1, List.mem_append, List.mem_cons] at h
    rcases h with h | h | h
    · rcases eq_nil_or_mem_of_mem_above h with h | h
      · exact .inl h
      · exact .inr (.inl h)
    · exact .inr (.inr ⟨s, List.mem_cons_self, .inl h⟩)
    · rcases ih (endsSolid_trim s.body) hss.2 h with h | h | ⟨u, hu, h⟩
      · exact .inl h
      · exact .inr (.inr ⟨s, List.mem_cons_self, .inr h⟩)
      · exact .inr (.inr ⟨u, List.mem_cons_of_mem s hu, h⟩)

/-- Any section below a text is a line with its name and the lines of its body. -/
theorem exists_lines_append_written {front : List Section}
    (hfront : ∀ s ∈ front, isMarker s.name) {s : Section} (hs : isMarker s.name)
    (back : List Section) :
  ∃ ls : List Text, lines (t ++ (front ++ s :: back).flatMap written)
    = ls ++ s.name :: lines (trim s.body ++ back.flatMap written)
  := by
  induction front generalizing t with
  | nil => exact ⟨above t, lines_append_written ht hs back⟩
  | cons u front ih =>
    rw [List.forall_mem_cons] at hfront
    obtain ⟨ls, hls⟩ := ih (endsSolid_trim u.body) hfront.2
    rw [List.cons_append, lines_append_written ht hfront.1, hls]
    exact ⟨above t ++ u.name :: ls, by simp⟩

/-- A text without markers is the body under a name that does not come again below it. -/
theorem body?_ofLines_append_written (hnone : NoMarker t) {name : Text} (hname : isMarker name)
    {ss : List Section} (hss : ∀ s ∈ ss, isMarker s.name)
    (hother : ∀ s ∈ ss, s.name ≠ name ∧ name ∉ lines (trim s.body)) :
  body? (ofLines name (lines (t ++ ss.flatMap written))).reverse name
    = some (join ['\n'] (lines t))
  := by
  cases ss with
  | nil =>
    rw [List.flatMap_nil, List.append_nil, ofLines_of_no_marker hnone]
    exact (body?_cons _ _ _).trans (if_pos rfl)
  | cons s ss =>
    rw [List.forall_mem_cons] at hss hother
    have habove : ∀ line ∈ above t, ¬ isMarker line := by
      intro line hline
      rcases eq_nil_or_mem_of_mem_above hline with rfl | hline
      · decide
      · exact hnone line hline
    have hnot : name ∉ s.name :: lines (trim s.body ++ ss.flatMap written) := by
      rw [List.mem_cons, not_or]
      refine ⟨hother.1.1.symm, ?_⟩
      intro hmem
      rcases of_mem_lines_append_written (endsSolid_trim s.body) hss.2 hmem with
        h | h | ⟨u, hu, h | h⟩
      · exact ne_nil_of_isMarker hname h
      · exact hother.1.2 h
      · exact (hother.2 u hu).1 h.symm
      · exact (hother.2 u hu).2 h
    rw [lines_append_written ht hss.1, body?_ofLines_append name habove (by simpa using hss.1) hnot,
      join_above]

end

end Section

namespace Bundle

open Text Section

/-! ### Sections by a list of names -/

/-- The sections with the given names, in the order of the names, as far as a body is found. -/
def listed (find : Text → Option Text) (names : List Text) : List Section :=
  names.filterMap fun name => (find name).map (⟨name, ·⟩)

theorem listed_cons (find : Text → Option Text) (name : Text) (names : List Text) :
  listed find (name :: names) = ((find name).map (⟨name, ·⟩)).toList ++ listed find names
  := by
  rw [listed, List.filterMap_cons]
  cases find name <;> rfl

theorem mem_listed_iff (find : Text → Option Text) (names : List Text) (s : Section) :
  s ∈ listed find names ↔ s.name ∈ names ∧ find s.name = some s.body
  := by
  rw [listed, List.mem_filterMap]
  constructor
  · rintro ⟨name, hname, hs⟩
    obtain ⟨body, hbody, rfl⟩ := Option.map_eq_some_iff.mp hs
    exact ⟨hname, hbody⟩
  · rintro ⟨hname, hbody⟩
    exact ⟨s.name, hname, by rw [hbody]; rfl⟩

theorem map_name_listed (find : Text → Option Text) (names : List Text) :
  (listed find names).map Section.name = names.filter fun name => (find name).isSome
  := by
  induction names with
  | nil => rfl
  | cons name names ih =>
    rw [listed_cons, List.map_append, ih, List.filter_cons]
    cases find name <;> rfl

theorem nodup_map_name_listed (find : Text → Option Text) {names : List Text} (h : names.Nodup) :
  ((listed find names).map Section.name).Nodup
  := by
  rw [map_name_listed]
  exact h.filter _

/-- Under one name there is the section that is found, or none. -/
theorem filter_listed (find : Text → Option Text) {names : List Text} (hnodup : names.Nodup)
    {name : Text} (h : name ∈ names) :
  ((listed find names).filter (·.name == name)).map Section.body = (find name).toList
  := by
  induction names with
  | nil => contradiction
  | cons first names ih =>
    rw [List.nodup_cons] at hnodup
    rw [listed_cons, List.filter_append, List.map_append]
    by_cases hfirst : first = name
    · subst hfirst
      have hrest : (listed find names).filter (·.name == first) = [] := by
        apply List.filter_eq_nil_iff.mpr
        intro s hs heq
        exact hnodup.1 (eq_of_beq heq ▸ ((mem_listed_iff find names s).mp hs).1)
      rw [hrest]
      cases find first <;> simp
    · rw [ih hnodup.2 ((List.mem_cons.mp h).resolve_left (Ne.symm hfirst))]
      cases find first <;> simp [hfirst]

/-! ### Sections of the sources -/

/-- A section that makes no conflict is one more, with a name of its own. -/
theorem Gathered.of_add {g : Gathered} {s : Section} (h : (g.add s).conflicts = []) :
  g.conflicts = [] ∧ s.name ∉ g.found.map Section.name ∧ (g.add s).found = g.found ++ [s]
  := by
  rw [add] at h ⊢
  split at h
  · split at h
    · rename_i hc
      rw [h] at hc
      contradiction
    · simp at h
  · rename_i hnew
    rw [if_neg hnew]
    refine ⟨h, ?_, rfl⟩
    rintro hmem
    obtain ⟨t, ht, hname⟩ := List.mem_map.mp hmem
    exact hnew (List.any_eq_true.mpr ⟨t, ht, by simpa using hname⟩)

/-- Without conflicts, all sections are gathered and their names are distinct. -/
theorem foldl_add_of_no_conflict {ss : List Section}
    (h : (ss.foldl Gathered.add {}).conflicts = []) :
  (ss.foldl Gathered.add {}).found = ss ∧ (ss.map Section.name).Nodup
  := by
  -- Sections are gathered from the front, so the last one is added to all others.
  induction ss using List.reverseRecOn with
  | nil => exact ⟨rfl, List.nodup_nil⟩
  | append_singleton ss s ih =>
    rw [List.foldl_concat] at h ⊢
    obtain ⟨hbefore, hnew, hfound⟩ := Gathered.of_add h
    obtain ⟨hall, hnodup⟩ := ih hbefore
    rw [hall] at hnew hfound
    refine ⟨hfound, ?_⟩
    rw [List.map_append, List.map_singleton]
    exact List.nodup_append.mpr ⟨hnodup, List.nodup_singleton _, by simpa using hnew⟩

/-- What a combination that succeeds writes, and that no section is in two sources. -/
theorem of_combine_eq_ok {sources : List Source} {out : Text}
    (h : (combine sources).value = .ok out) :
  ((sources.flatMap dataOf).map Section.name).Nodup
    ∧ out = assemble (sources.filterMap tab?) (sources.flatMap dataOf)
  := by
  unfold combine at h
  split at h
  · contradiction
  · dsimp only at h
    split at h
    · contradiction
    · rename_i hconflicts
      have hnone : (gather sources).conflicts = [] := by simpa using hconflicts
      obtain ⟨hfound, hnodup⟩ := foldl_add_of_no_conflict hnone
      refine ⟨hnodup, ?_⟩
      have hout : assemble (sources.filterMap tab?) (gather sources).found = out :=
        Except.ok.inj h
      rw [← hout, gather, hfound]

/-- The body, if it is not empty, of a section of a source. -/
def dataBody? (source : Source) (name : Text) : Option Text :=
  (body? (split source.text) name).filter fun body => !body.isEmpty

theorem dataOf_eq_listed (source : Source) :
  dataOf source = listed (dataBody? source) dataSections
  := by
  apply List.filterMap_congr
  intro name _
  rw [dataBody?]
  cases body? (split source.text) name with
  | none => rfl
  | some body => cases body <;> rfl

/-- The bodies, not empty, of a section in the sources. -/
def bodies (sources : List Source) (name : Text) : List Text :=
  sources.filterMap fun source => dataBody? source name

/-- The sections found in the sources under one name have the bodies of that name. -/
theorem filter_flatMap_dataOf (sources : List Source) {name : Text}
    (h : name ∈ dataSections) :
  ((sources.flatMap dataOf).filter (·.name == name)).map Section.body = bodies sources name
  := by
  rw [List.filter_flatMap, List.map_flatMap, bodies, List.filterMap_eq_flatMap_toList]
  apply List.flatMap_congr
  intro source _
  rw [dataOf_eq_listed, filter_listed _ (by decide) h]

/-- Where no section is in two sources, there is one body at most for a name, and it is found. -/
theorem bodies_of_nodup {sources : List Source}
    (hnodup : ((sources.flatMap dataOf).map Section.name).Nodup) {name : Text}
    (h : name ∈ dataSections) :
  (bodies sources name).length ≤ 1
    ∧ body? (sources.flatMap dataOf) name = (bodies sources name).head?
  := by
  rw [← filter_flatMap_dataOf sources h, List.length_map, List.head?_map, List.head?_filter]
  refine ⟨?_, rfl⟩
  have hcount := List.nodup_iff_count_le_one.mp hnodup name
  rwa [List.count_eq_countP, List.countP_map, List.countP_eq_length_filter] at hcount

/-! ### Sections of the combination -/

theorem flatMap_writeSection (found : List Section) (names : List Text) :
  names.flatMap (writeSection found) = (listed (body? found) names).flatMap written
  := by
  induction names with
  | nil => rfl
  | cons name names ih =>
    rw [List.flatMap_cons, ih, listed_cons, List.flatMap_append, writeSection]
    congr 1
    cases body? found name with
    | none => rfl
    | some body => exact (List.append_nil _).symm

/-- A text that is not empty and does not end in white space. -/
structure Solid (t : Text) : Prop where
  ne_nil : t ≠ []
  endsSolid : EndsSolid t

theorem Solid.lines_append_gap {s : Text} (hs : Solid s) (t : Text) :
  lines (s ++ "\n\n".toList ++ t) = lines s ++ [] :: lines t
  := by
  have hshape : s ++ "\n\n".toList ++ t = s ++ '\n' :: ([] ++ '\n' :: t) :=
    List.append_assoc s _ t
  rw [hshape, hs.endsSolid.lines_append_break, lines_append_break List.not_mem_nil, above,
    if_neg hs.ne_nil]
  rfl

theorem solid_join {ts : List Text} (h : ∀ t ∈ ts, Solid t) (hne : ts ≠ []) :
  Solid (join "\n\n".toList ts)
  := by
  induction ts with
  | nil => contradiction
  | cons t ts ih =>
    rw [List.forall_mem_cons] at h
    by_cases hts : ts = []
    · subst hts
      rw [join, List.intercalate_singleton]
      exact h.1
    · have hjoin := ih h.2 hts
      rw [join, List.intercalate_cons_of_ne_nil hts]
      exact ⟨List.append_ne_nil_of_right_ne_nil _ hjoin.ne_nil,
        hjoin.endsSolid.append_left hjoin.ne_nil _⟩

theorem endsSolid_join {ts : List Text} (h : ∀ t ∈ ts, Solid t) :
  EndsSolid (join "\n\n".toList ts)
  := by
  by_cases hne : ts = []
  · subst hne
    exact endsSolid_trim []
  · exact (solid_join h hne).endsSolid

/-- A line of texts with gaps between them is in one of them or in a gap. -/
theorem of_mem_lines_join {ts : List Text} (h : ∀ t ∈ ts, Solid t) {line : Text}
    (hline : line ∈ lines (join "\n\n".toList ts)) :
  line = [] ∨ ∃ t ∈ ts, line ∈ lines t
  := by
  induction ts with
  | nil => contradiction
  | cons t ts ih =>
    rw [List.forall_mem_cons] at h
    by_cases hts : ts = []
    · subst hts
      rw [join, List.intercalate_singleton] at hline
      exact .inr ⟨t, List.mem_cons_self, hline⟩
    · rw [join, List.intercalate_cons_of_ne_nil hts, h.1.lines_append_gap, List.mem_append,
        List.mem_cons] at hline
      rcases hline with hline | hline | hline
      · exact .inr ⟨t, List.mem_cons_self, hline⟩
      · exact .inl hline
      · rcases ih h.2 hline with hline | ⟨u, hu, hline⟩
        · exact .inl hline
        · exact .inr ⟨u, List.mem_cons_of_mem t hu, hline⟩

theorem isMarker_of_mem_dataSections {name : Text} (h : name ∈ dataSections) :
  isMarker name
  := by
  have hall : ∀ name ∈ dataSections, isMarker name := by decide +kernel
  exact hall name h

theorem lines_assemble (tabs : List Text) (found : List Section) :
  lines (assemble tabs found) = lines header
    ++ lines (join "\n\n".toList tabs ++ (listed (body? found) dataSections).flatMap written)
  := by
  rw [assemble, flatMap_writeSection, List.append_assoc, lines_append (.inr (.inr (by decide)))]

theorem isMarker_of_mem_listed {find : Text → Option Text} {s : Section}
    (h : s ∈ listed find dataSections) :
  isMarker s.name
  := isMarker_of_mem_dataSections ((mem_listed_iff _ _ s).mp h).1

section

variable {tabs : List Text} (htabs : ∀ tab ∈ tabs, Solid tab) {found : List Section}
  {name : Text} (hname : name ∈ dataSections)
  (hdata : ∀ s ∈ found, name ∉ lines (trim s.body))

include hdata in
theorem not_mem_lines_of_mem_listed {s : Section} (h : s ∈ listed (body? found) dataSections) :
  name ∉ lines (trim s.body)
  := by
  obtain ⟨u, hu, hbody⟩ := Option.map_eq_some_iff.mp ((mem_listed_iff _ _ s).mp h).2
  rw [← hbody]
  exact hdata u (List.mem_of_find?_eq_some hu)

include htabs hname hdata

/-- A section that is not found is not in the combination. -/
theorem body?_split_assemble_eq_none (htab : ∀ tab ∈ tabs, name ∉ lines tab)
    (hnone : body? found name = none) :
  body? (split (assemble tabs found)) name = none
  := by
  have hheader : ∀ name ∈ dataSections, name ≠ Cartridge.codeMarker ∧ name ∉ lines header := by
    decide
  rw [body?_split, body?_eq_none_iff, List.map_reverse, List.mem_reverse, map_name_ofLines,
    lines_assemble, List.mem_cons, not_or, List.mem_filter]
  refine ⟨(hheader name hname).1, ?_⟩
  rintro ⟨hmem, -⟩
  rcases List.mem_append.mp hmem with hmem | hmem
  · exact (hheader name hname).2 hmem
  rcases of_mem_lines_append_written (endsSolid_join htabs) (fun s => isMarker_of_mem_listed) hmem
    with h | h | ⟨s, hs, h | h⟩
  · exact ne_nil_of_isMarker (isMarker_of_mem_dataSections hname) h
  · rcases of_mem_lines_join htabs h with h | ⟨tab, hmem, h⟩
    · exact ne_nil_of_isMarker (isMarker_of_mem_dataSections hname) h
    · exact htab tab hmem h
  · have hfind := ((mem_listed_iff _ _ s).mp hs).2
    rw [← h, hnone] at hfind
    contradiction
  · exact not_mem_lines_of_mem_listed hdata hs h

/-- A section that is found is in the combination, its body line by line. -/
theorem body?_split_assemble_eq_some {body : Text} (hsome : body? found name = some body)
    (hbody : NoMarker (trim body)) :
  body? (split (assemble tabs found)) name = some (join ['\n'] (lines (trim body)))
  := by
  have hmarker := isMarker_of_mem_dataSections hname
  have hmem : ⟨name, body⟩ ∈ listed (body? found) dataSections :=
    (mem_listed_iff _ _ _).mpr ⟨hname, hsome⟩
  have hnodup : ((listed (body? found) dataSections).map Section.name).Nodup :=
    nodup_map_name_listed _ (by decide)
  have hmarkers : ∀ s ∈ listed (body? found) dataSections, isMarker s.name :=
    fun s => isMarker_of_mem_listed
  have hlines : ∀ s ∈ listed (body? found) dataSections, name ∉ lines (trim s.body) :=
    fun s => not_mem_lines_of_mem_listed hdata
  rw [body?_split, lines_assemble]
  obtain ⟨front, back, hsplit⟩ := List.append_of_mem hmem
  rw [hsplit] at hnodup hmarkers hlines ⊢
  rw [List.forall_mem_append, List.forall_mem_cons] at hmarkers hlines
  rw [List.map_append, List.map_cons, List.nodup_append, List.nodup_cons] at hnodup
  have hother : ∀ s ∈ back, s.name ≠ name ∧ name ∉ lines (trim s.body) := by
    intro s hs
    refine ⟨?_, hlines.2.2 s hs⟩
    rintro rfl
    exact hnodup.2.1.1 (List.mem_map.mpr ⟨s, hs, rfl⟩)
  -- The lines above the marker do not matter, since the last section of a name is found.
  obtain ⟨ls, hls⟩ := exists_lines_append_written (endsSolid_join htabs) hmarkers.1
    hmarkers.2.1 back
  rw [hls, ← List.append_assoc, ofLines_append_marker hmarker, List.reverse_append, body?_append,
    body?_ofLines_append_written (endsSolid_trim body) hbody hmarker hmarkers.2.2 hother]
  rfl

end

/-- What a combination writes of a source leaves the section with the name as it is: the name is
no line of the tab or of a body, and the body of that name has no marker in it and no return
before a break. -/
structure Source.Keeps (source : Source) (name : Text) : Prop where
  tab : ∀ tab ∈ tab? source, name ∉ lines tab
  data : ∀ s ∈ dataOf source, name ∉ lines (trim s.body)
  body : ∀ body ∈ dataBody? source name, NoMarker (trim body) ∧ ¬ ['\r', '\n'] <:+: trim body

theorem solid_of_tab? {source : Source} {tab : Text} (h : tab? source = some tab) :
  Solid tab
  := by
  unfold tab? at h
  split at h
  · contradiction
  · split at h
    · contradiction
    · rename_i body _ hne
      obtain rfl := Option.some.inj h
      rw [List.isEmpty_iff] at hne
      exact ⟨by simp, (endsSolid_trim body).append_left hne _⟩

/-- A section of the sources, which is in one of them at most, is read back from their
combination without the white space around it. -/
theorem body?_split_combine {sources : List Source} {out : Text}
    (h : (combine sources).value = .ok out) {name : Text} (hname : name ∈ dataSections)
    (hs : ∀ source ∈ sources, source.Keeps name) :
  (bodies sources name).length ≤ 1
    ∧ body? (split out) name = (bodies sources name).head?.map trim
  := by
  obtain ⟨hnodup, rfl⟩ := of_combine_eq_ok h
  obtain ⟨hone, hfound⟩ := bodies_of_nodup hnodup hname
  have htabs : ∀ tab ∈ sources.filterMap tab?, Solid tab ∧ name ∉ lines tab := by
    intro tab htab
    obtain ⟨source, hsource, htab⟩ := List.mem_filterMap.mp htab
    exact ⟨solid_of_tab? htab, (hs source hsource).tab tab htab⟩
  have hdata : ∀ s ∈ sources.flatMap dataOf, name ∉ lines (trim s.body) := by
    intro s hmem
    obtain ⟨source, hsource, hmem⟩ := List.mem_flatMap.mp hmem
    exact (hs source hsource).data s hmem
  refine ⟨hone, ?_⟩
  cases hhead : (bodies sources name).head? with
  | none =>
    exact body?_split_assemble_eq_none (fun tab htab => (htabs tab htab).1) hname hdata
      (fun tab htab => (htabs tab htab).2) (hfound.trans hhead)
  | some body =>
    obtain ⟨source, hsource, hbody⟩ := List.mem_filterMap.mp (List.mem_of_head? hhead)
    obtain ⟨hnone, hreturn⟩ := (hs source hsource).body body hbody
    rw [body?_split_assemble_eq_some (fun tab htab => (htabs tab htab).1) hname hdata
      (hfound.trans hhead) hnone,
      join_lines hreturn ((endsSolid_trim body).getLast?_ne (by decide))]
    rfl

theorem body?_split_combine_graphics :
  (∀ source ∈ [(⟨"a.p8".toList, "x=1\n__gfx__\n\n 00\n11 ".toList⟩ : Source),
      ⟨"b.p8".toList, "y=2\n__map__\r\n01".toList⟩], source.Keeps "__gfx__".toList)
    ∧ ∃ out : Text,
      (combine [⟨"a.p8".toList, "x=1\n__gfx__\n\n 00\n11 ".toList⟩,
        ⟨"b.p8".toList, "y=2\n__map__\r\n01".toList⟩]).value = .ok out
        ∧ body? (split out) "__gfx__".toList = some "00\n11".toList
  := by
  have hs : ∀ source ∈ [(⟨"a.p8".toList, "x=1\n__gfx__\n\n 00\n11 ".toList⟩ : Source),
      ⟨"b.p8".toList, "y=2\n__map__\r\n01".toList⟩], source.Keeps "__gfx__".toList := by
    simp only [List.forall_mem_cons]
    exact ⟨⟨by decide +kernel, by decide +kernel, by decide +kernel⟩,
      ⟨by decide +kernel, by decide +kernel, by decide +kernel⟩, List.forall_mem_nil _⟩
  refine ⟨hs, _, rfl, ?_⟩
  exact (body?_split_combine rfl (by decide) hs).2.trans (by decide +kernel)

/-- Without the white space before it, an indented line of code is a marker, and the code below
it becomes graphics. -/
theorem body?_split_combine_indented_marker :
  bodies [⟨"a.p8".toList, "__lua__\n  __gfx__\nx=1\n".toList⟩] "__gfx__".toList = []
    ∧ ∃ out : Text,
      (combine [⟨"a.p8".toList, "__lua__\n  __gfx__\nx=1\n".toList⟩]).value = .ok out
        ∧ body? (split out) "__gfx__".toList = some "x=1".toList
  := ⟨by decide +kernel, _, rfl, by decide +kernel⟩

end Bundle

end CartTokens
