import CartTokens.Proofs.Bundle
import CartTokens.Proofs.Count

/-!
# The cost of combined cartridges

The cost of a cartridge whose code has no block comment is the cost of its lines
(`countText_eq_cost`), and the lines of a combination are those of its tabs
(`Bundle.countText_assemble`).  The code of a saved cartridge is found both by the count and by
the combination (`Bundle.Saved.exists_code`), though one looks for markers in trimmed lines and
the other in lines as they are.  So saved cartridges cost together what their combination costs
(`Bundle.countText_combine`).
-/

namespace CartTokens

namespace Text

/-! ### Marks in a text -/

/-- A mark in texts with gaps between them is in one of them. -/
theorem exists_isInfix_of_join {mark : Text} (hne : mark ≠ []) {c : Char} (hc : c ∉ mark)
    {w : Text} (hw : ∀ d ∈ w, d ∉ mark) {ts : List Text} (h : mark <:+: join (c :: w) ts) :
  ∃ t ∈ ts, mark <:+: t
  := by
  have hgap : ∀ w t : Text, (∀ d ∈ w, d ∉ mark) → mark <:+: w ++ t → mark <:+: t := by
    intro w t hw h
    induction w with
    | nil => exact h
    | cons d w ih =>
      rw [List.forall_mem_cons] at hw
      rcases isInfix_of_append_cons (s := []) hw.1 h with hnil | h
      · exact absurd (List.eq_nil_of_infix_nil hnil) hne
      · exact ih hw.2 h
  induction ts with
  | nil => exact absurd (List.eq_nil_of_infix_nil h) hne
  | cons t ts ih =>
    by_cases hts : ts = []
    · subst hts
      rw [join, List.intercalate_singleton] at h
      exact ⟨t, List.mem_singleton_self t, h⟩
    · rw [join, List.intercalate_cons_of_ne_nil hts, List.append_assoc, List.cons_append] at h
      rcases isInfix_of_append_cons hc h with h | h
      · exact ⟨t, List.mem_cons_self, h⟩
      · obtain ⟨u, hu, h⟩ := ih (hgap w _ hw h)
        exact ⟨u, List.mem_cons_of_mem t hu, h⟩

theorem trim_isInfix (t : Text) :
  trim t <:+: t
  := by
  obtain ⟨v, w, -, -, ht⟩ := exists_eq_append_trim t
  exact ⟨v, w, ht.symm⟩

theorem isInfix_of_mem_lines {line t : Text} (h : line ∈ lines t) :
  line <:+: t
  := by
  obtain ⟨piece, hpiece, rfl⟩ := List.mem_map.mp h
  have hin : piece <:+: t := by
    rw [← flatten_pieces t]
    exact List.infix_of_mem_flatten hpiece
  exact (isPrefix_chomp piece).isInfix.trans hin

/-! ### Content of joined texts -/

theorem contentLines_trim (t : Text) :
  contentLines (trim t) = contentLines t
  := by
  obtain ⟨v, w, hv, hw, ht⟩ := exists_eq_append_trim t
  nth_rewrite 2 [ht]
  rw [contentLines_append_blank _ hw, contentLines_blank_append hv]

theorem contentLines_join {w : Text} (hw : isBlankLine w) (ts : List Text) :
  contentLines (join ('\n' :: w) ts) = ts.flatMap contentLines
  := by
  induction ts with
  | nil => rfl
  | cons t ts ih =>
    by_cases hts : ts = []
    · subst hts
      rw [join, List.intercalate_singleton, List.flatMap_singleton]
    · rw [join, List.intercalate_cons_of_ne_nil hts, List.append_assoc, List.cons_append,
        contentLines_append_break, contentLines_blank_append hw, List.flatMap_cons, ← ih]
      rfl

/-- The lines of a text, joined again, have its content. -/
theorem contentLines_join_lines (t : Text) :
  contentLines (join ['\n'] (lines t)) = contentLines t
  := by
  rw [contentLines_join rfl]
  induction t using line_induction with
  | line l hl =>
    by_cases hne : l = []
    · subst hne
      rfl
    · rw [lines_line hl hne, List.flatMap_singleton]
  | cut l t hl ih =>
    have hfirst : contentLines (chomp (l ++ ['\n'])) = contentLines l := by
      obtain ⟨w, hw, heq⟩ := exists_eq_chomp_append (l ++ ['\n'])
      rw [← contentLines_append_blank _ hw, ← heq, contentLines_append_blank _ isBlankLine_break]
    rw [lines_append_break hl, List.flatMap_cons, ih, hfirst, contentLines_append_break]

end Text

open Text

/-! ### Code without block comments -/

theorem stripComments_of_no_opener {t : Text} (h : ¬ "--[".toList <:+: t) :
  stripComments t = t
  := replaceComments_of_findOpener_eq_none [] (findOpener_eq_none h)

/-- A cartridge whose code has the content of a text without block comments costs what the
lines of that text cost. -/
theorem countText_eq_cost {t code : Text}
    (h : contentLines (Cartridge.code t) = contentLines code) (hc : ¬ "--[".toList <:+: code) :
  countText t = cost code
  := by
  rw [countText_eq_sum, contentLines_stripComments_congr h, stripComments_of_no_opener hc, cost]

theorem cost_join {w : Text} (hw : isBlankLine w) (ts : List Text) :
  cost (join ('\n' :: w) ts) = (ts.map cost).sum
  := by
  rw [cost, contentLines_join hw]
  induction ts with
  | nil => rfl
  | cons t ts ih =>
    rw [List.flatMap_cons, List.map_append, List.sum_append, ih]
    rfl

namespace Cartridge

/-- The content of code below a header and above the first section. -/
theorem contentLines_code_of_eq {t banner version : Text} {ls rest : List Text}
    (h : contentLines t = banner :: version :: codeMarker :: (ls ++ rest))
    (hbanner : isBanner banner) (hversion : isVersion version) (hls : dropHeaders ls = ls)
    (hplain : ∀ line ∈ ls, line ∉ sectionMarkers)
    (hrest : ∀ line ∈ rest.head?, line ∈ sectionMarkers) :
  contentLines (code t) = ls
  := by
  have hheader : dropHeaders (contentLines t) = dropHeaders (ls ++ rest) := by
    rw [h, dropHeaders, if_pos hbanner, dropFirstIf, if_pos hversion, dropHeaders,
      if_neg (by decide), if_pos rfl]
  have hall : ∀ line ∈ ls, !sectionMarkers.contains line := by
    intro line hline
    simpa using hplain line hline
  rw [contentLines_code, hheader]
  cases rest with
  | nil => rw [List.append_nil, hls, List.takeWhile_eq_self_iff.mpr hall]
  | cons marker rest =>
    have hmarker := hrest marker rfl
    rw [dropHeaders_append hmarker, hls, List.takeWhile_append_of_pos hall,
      List.takeWhile_cons_of_neg (by simpa using hmarker), List.append_nil]

end Cartridge

/-! ### Saved cartridges -/

open Cartridge Section

namespace Bundle

/-- Code without block comments, and without lines that could be markers or headers. -/
structure PlainCode (code : Text) : Prop where
  no_comment : ¬ "--[".toList <:+: code
  no_marker : ∀ line ∈ lines code, trim line ∉ sectionMarkers ∧ ¬ isMarker line
  no_header : stripHeader code = code

/-- Nothing, or sections of which none is code. -/
structure PlainData (data : Text) : Prop where
  head : data = [] ∨ ∃ name ∈ dataSections, (lines data).head? = some name
  no_code : codeMarker ∉ lines data

/-- A banner line, a version line and the code marker, then code and then data. -/
inductive Saved : Text → Prop where
  | mk {header banner version code data : Text}
      (hheader : lines header = [banner, version, codeMarker])
      (hbanner : isBanner (trim banner)) (hversion : isVersion (trim version))
      (hcode : PlainCode code) (hdata : PlainData data)
      (hbelow : StartsLine header (code ++ data)) (hnext : StartsLine code data) :
      Saved (header ++ code ++ data)

theorem mem_sectionMarkers_of_mem_dataSections {name : Text} (h : name ∈ dataSections) :
  name ∈ sectionMarkers
  := by
  have hall : ∀ name ∈ dataSections, name ∈ sectionMarkers := by decide
  exact hall name h

theorem PlainCode.dropHeaders_contentLines {code : Text} (h : PlainCode code) :
  dropHeaders (contentLines code) = contentLines code
  := by
  rw [← contentLines_stripHeader, h.no_header]

theorem PlainCode.not_mem_sectionMarkers {code : Text} (h : PlainCode code) :
  ∀ line ∈ contentLines code, line ∉ sectionMarkers
  := by
  intro line hline
  rw [contentLines_eq_lines, List.mem_filter, List.mem_map] at hline
  obtain ⟨⟨l, hl, rfl⟩, -⟩ := hline
  exact (h.no_marker l hl).1

/-- Data has no content, or a marker is the first line of its content. -/
theorem PlainData.mem_of_head? {data : Text} (h : PlainData data) :
  ∀ line ∈ (contentLines data).head?, line ∈ sectionMarkers
  := by
  intro line hline
  rcases h.head with rfl | ⟨name, hname, hhead⟩
  · contradiction
  · obtain ⟨rest, hrest⟩ := List.head?_eq_some_iff.mp hhead
    have hmarker := mem_sectionMarkers_of_mem_dataSections hname
    have hkeep : ∀ m ∈ sectionMarkers, trim m = m ∧ m ≠ [] := by decide
    obtain ⟨htrim, hne⟩ := hkeep name hmarker
    rw [contentLines_eq_lines, hrest, List.map_cons, htrim,
      List.filter_cons_of_pos (by simpa using hne)] at hline
    obtain rfl := Option.some.inj hline
    exact hmarker

theorem PlainData.isMarker_of_head? {data : Text} (h : PlainData data) :
  ∀ line ∈ (lines data).head?, isMarker line
  := by
  intro line hline
  rcases h.head with rfl | ⟨name, hname, hhead⟩
  · contradiction
  · rw [hhead] at hline
    obtain rfl := Option.some.inj hline
    exact isMarker_of_mem_dataSections hname

theorem contentLines_of_lines_eq {header banner version : Text}
    (h : lines header = [banner, version, codeMarker]) (hbanner : isBanner (trim banner))
    (hversion : isVersion (trim version)) :
  contentLines header = [trim banner, trim version, codeMarker]
  := by
  have hne : ∀ p : Text → Bool, ¬ p [] → ∀ line : Text, p line → !line.isEmpty := by
    intro p hp line hline
    cases line with
    | nil => contradiction
    | cons c line => rfl
  rw [contentLines_eq_lines, h]
  apply List.filter_eq_self.mpr
  simp only [List.map_cons, List.map_nil, List.forall_mem_cons]
  exact ⟨hne isBanner (by decide) _ hbanner, hne isVersion (by decide) _ hversion, by decide,
    List.forall_mem_nil _⟩

/-- A saved cartridge costs what its code costs, and has its code as a section. -/
theorem Saved.exists_code {t : Text} (h : Saved t) :
  ∃ code : Text, PlainCode code ∧ countText t = cost code
    ∧ body? (split t) codeMarker = some (join ['\n'] (lines code))
  := by
  obtain @⟨header, banner, version, code, data, hheader, hbanner, hversion, hcode, hdata, hbelow,
    hnext⟩ := h
  refine ⟨code, hcode, ?_, ?_⟩
  · have hcontent : contentLines (header ++ code ++ data) = trim banner :: trim version
        :: codeMarker :: (contentLines code ++ contentLines data) := by
      rw [List.append_assoc, contentLines_append hbelow, contentLines_append hnext,
        contentLines_of_lines_eq hheader hbanner hversion]
      rfl
    apply countText_eq_cost _ hcode.no_comment
    exact contentLines_code_of_eq hcontent hbanner hversion hcode.dropHeaders_contentLines
      hcode.not_mem_sectionMarkers hdata.mem_of_head?
  · have hlines : lines (header ++ code ++ data)
        = [banner, version] ++ codeMarker :: (lines code ++ lines data) := by
      rw [List.append_assoc, lines_append hbelow, lines_append hnext, hheader]
      rfl
    rw [body?_split, hlines, ofLines_append_marker (by decide +kernel), List.reverse_append,
      body?_append, body?_ofLines_append codeMarker
        (fun line hline => (hcode.no_marker line hline).2) hdata.isMarker_of_head? hdata.no_code]
    rfl

/-! ### Tabs -/

/-- A name that takes one line without a block comment, and a saved cartridge. -/
structure Source.IsPlain (source : Source) : Prop where
  no_break : '\n' ∉ source.name
  no_comment : ¬ "--[".toList <:+: source.name
  saved : Saved source.text

/-- The lines of a tab: its separator first, and no marker of a section. -/
structure PlainTab (tab : Text) : Prop where
  no_comment : ¬ "--[".toList <:+: tab
  head : (contentLines tab).head? = some tabSeparator
  no_marker : ∀ line ∈ contentLines tab, line ∉ sectionMarkers

/-- The tab of code under a name. -/
def tabOf (name body : Text) : Text :=
  tabSeparator ++ '\n' :: ("--".toList ++ ' ' :: (name ++ '\n' :: trim body))

theorem tab?_eq {source : Source} {body : Text}
    (h : body? (split source.text) codeMarker = some body) :
  tab? source = if isBlankLine body then none else some (tabOf source.name body)
  := by
  rw [tab?, h]
  simp only [isEmpty_trim, tabOf]
  simp

/-- A line with the name of a tab is a comment. -/
theorem exists_trim_eq_comment (name : Text) :
  ∃ rest : Text, trim ("--".toList ++ ' ' :: name) = "--".toList ++ rest
  := ⟨_, trim_append (by decide) (by decide) _⟩

theorem contentLines_tabOf {name : Text} (h : '\n' ∉ name) (body : Text) :
  contentLines (tabOf name body)
    = tabSeparator :: trim ("--".toList ++ ' ' :: name) :: contentLines body
  := by
  have hname : contentLines ("--".toList ++ ' ' :: name) = [trim ("--".toList ++ ' ' :: name)] := by
    apply contentLines_of_not_isBlankLine
    · simpa using h
    · intro hblank
      exact absurd ((isBlankLine_iff _).mp hblank '-' (by simp)) (by decide)
  have hseparator : contentLines tabSeparator = [tabSeparator] := by decide
  have hshape : "--".toList ++ ' ' :: (name ++ '\n' :: trim body)
      = "--".toList ++ ' ' :: name ++ '\n' :: trim body := rfl
  rw [tabOf, hshape, contentLines_append_break, contentLines_append_break, hseparator, hname,
    contentLines_trim]
  rfl

theorem cost_tabOf {name : Text} (h : '\n' ∉ name) (body : Text) :
  cost (tabOf name body) = cost body
  := by
  obtain ⟨rest, hrest⟩ := exists_trim_eq_comment name
  have hseparator : Line.count tabSeparator = 0 := Line.count_of_startsComment (by decide)
  have hname : Line.count (trim ("--".toList ++ ' ' :: name)) = 0 := by
    apply Line.count_of_startsComment
    rw [hrest]
    rfl
  rw [cost, contentLines_tabOf h, List.map_cons, List.map_cons, List.sum_cons, List.sum_cons,
    hseparator, hname, Nat.zero_add, Nat.zero_add, cost]

theorem PlainCode.plainTab {code : Text} (h : PlainCode code) {name : Text} (hline : '\n' ∉ name)
    (hname : ¬ "--[".toList <:+: name) :
  PlainTab (tabOf name (join ['\n'] (lines code)))
  := by
  refine ⟨?_, ?_, ?_⟩
  · have hbody : ¬ "--[".toList <:+: join ['\n'] (lines code) := by
      intro hin
      obtain ⟨line, hmem, hin⟩ :=
        exists_isInfix_of_join (by decide) (by decide) (List.forall_mem_nil _) hin
      exact h.no_comment (hin.trans (isInfix_of_mem_lines hmem))
    intro hin
    rcases isInfix_of_append_cons (by decide) hin with hin | hin
    · exact absurd hin (by decide)
    rcases isInfix_of_append_cons (by decide) hin with hin | hin
    · exact absurd hin (by decide)
    rcases isInfix_of_append_cons (by decide) hin with hin | hin
    · exact hname hin
    · exact hbody (hin.trans (trim_isInfix _))
  · rw [contentLines_tabOf hline]
    rfl
  · obtain ⟨rest, hrest⟩ := exists_trim_eq_comment name
    have hmarkers : ∀ m ∈ sectionMarkers, m.head? ≠ some '-' := by decide
    rw [contentLines_tabOf hline, contentLines_join_lines, hrest]
    simp only [List.forall_mem_cons]
    exact ⟨by decide, fun hmem => hmarkers _ hmem rfl, h.not_mem_sectionMarkers⟩

/-- The tab of a source, if there is one, and the cost of the source. -/
theorem Source.IsPlain.plainTab_of_tab? {source : Source} (h : source.IsPlain) :
  (∀ tab ∈ tab? source, PlainTab tab)
    ∧ ((tab? source).toList.map cost).sum = countText source.text
  := by
  obtain ⟨code, hcode, hcount, hbody⟩ := h.saved.exists_code
  have hcost : cost (join ['\n'] (lines code)) = cost code := by
    rw [cost, contentLines_join_lines, cost]
  rw [tab?_eq hbody, hcount]
  split
  · rename_i hblank
    refine ⟨by simp, ?_⟩
    rw [← hcost, cost, contentLines_of_isBlankLine hblank]
    rfl
  · constructor
    · intro tab htab
      obtain rfl := Option.some.inj htab
      exact hcode.plainTab h.no_break h.no_comment
    · rw [← hcost, ← cost_tabOf h.no_break]
      exact List.sum_singleton

theorem sum_cost_tabs {sources : List Source} (hs : ∀ source ∈ sources, source.IsPlain) :
  ((sources.filterMap tab?).map cost).sum
    = (sources.map fun source => countText source.text).sum
  := by
  induction sources with
  | nil => rfl
  | cons source sources ih =>
    rw [List.forall_mem_cons] at hs
    rw [List.filterMap_eq_flatMap_toList, List.flatMap_cons, ← List.filterMap_eq_flatMap_toList,
      List.map_append, List.sum_append, hs.1.plainTab_of_tab?.2, ih hs.2, List.map_cons,
      List.sum_cons]

/-! ### Combinations -/

theorem dropHeaders_of_head? {ls : List Text} (h : ∀ line ∈ ls.head?, line = tabSeparator) :
  dropHeaders ls = ls
  := by
  cases ls with
  | nil => rw [dropHeaders]
  | cons line ls =>
    obtain rfl := h line rfl
    rw [dropHeaders, if_neg (by decide), if_neg (by decide)]

/-- Sections below a text add content that begins with a marker. -/
theorem exists_contentLines_append_written (t : Text) {ss : List Section}
    (h : ∀ s ∈ ss, s.name ∈ sectionMarkers) :
  ∃ rest : List Text, contentLines (t ++ ss.flatMap written) = contentLines t ++ rest
    ∧ ∀ line ∈ rest.head?, line ∈ sectionMarkers
  := by
  cases ss with
  | nil => exact ⟨[], by simp, by simp⟩
  | cons s ss =>
    have hname := h s List.mem_cons_self
    have hline : ∀ m ∈ sectionMarkers, contentLines m = [m] := by decide
    have hshape : t ++ (s :: ss).flatMap written
        = t ++ '\n' :: (s.name ++ '\n' :: (trim s.body ++ ss.flatMap written)) := by
      rw [List.flatMap_cons, written]
      simp
    rw [hshape, contentLines_append_break, contentLines_append_break, hline s.name hname]
    refine ⟨_, rfl, ?_⟩
    intro line hmem
    obtain rfl := Option.some.inj hmem
    exact hname

theorem contentLines_header :
  contentLines header
    = ["pico-8 cartridge // http://www.pico-8.com", "version 36", "__lua__"].map String.toList
  := by decide

/-- The content of tabs is that of code: no header before it and no marker in it. -/
theorem contentLines_tabs {tabs : List Text} (h : ∀ tab ∈ tabs, PlainTab tab) :
  dropHeaders (tabs.flatMap contentLines) = tabs.flatMap contentLines
    ∧ ∀ line ∈ tabs.flatMap contentLines, line ∉ sectionMarkers
  := by
  constructor
  · apply dropHeaders_of_head?
    intro line hline
    cases tabs with
    | nil => contradiction
    | cons tab tabs =>
      have hhead := (h tab List.mem_cons_self).head
      rw [List.flatMap_cons, List.head?_append, hhead] at hline
      exact (Option.some.inj hline).symm
  · intro line hline
    obtain ⟨tab, htab, hline⟩ := List.mem_flatMap.mp hline
    exact (h tab htab).no_marker line hline

theorem countText_assemble {tabs : List Text} (h : ∀ tab ∈ tabs, PlainTab tab)
    (found : List Section) :
  countText (assemble tabs found) = (tabs.map cost).sum
  := by
  have hnames : ∀ s ∈ listed (body? found) dataSections, s.name ∈ sectionMarkers := by
    intro s hs
    exact mem_sectionMarkers_of_mem_dataSections ((mem_listed_iff _ _ s).mp hs).1
  obtain ⟨rest, hcontent, hrest⟩ :=
    exists_contentLines_append_written (join "\n\n".toList tabs) hnames
  have hjoin : contentLines (join "\n\n".toList tabs) = tabs.flatMap contentLines :=
    contentLines_join (w := ['\n']) rfl tabs
  obtain ⟨hheaders, hmarkers⟩ := contentLines_tabs h
  have hall : contentLines (assemble tabs found)
      = "pico-8 cartridge // http://www.pico-8.com".toList :: "version 36".toList
        :: codeMarker :: (tabs.flatMap contentLines ++ rest) := by
    rw [assemble, flatMap_writeSection, List.append_assoc,
      contentLines_append (.inr (.inr (by decide))), hcontent, contentLines_header, hjoin]
    rfl
  have hcode := contentLines_code_of_eq hall (by decide) (by decide) hheaders hmarkers hrest
  have hcomment : ¬ "--[".toList <:+: join "\n\n".toList tabs := by
    intro hin
    obtain ⟨tab, htab, hin⟩ := exists_isInfix_of_join (by decide) (c := '\n') (by decide)
      (w := ['\n']) (List.forall_mem_singleton.mpr (by decide)) hin
    exact (h tab htab).no_comment hin
  rw [countText_eq_cost (hcode.trans hjoin.symm) hcomment]
  exact cost_join (w := ['\n']) rfl tabs

/-- A combination of saved cartridges costs what they cost together. -/
theorem countText_combine {sources : List Source} (hs : ∀ source ∈ sources, source.IsPlain)
    {out : Text} (h : (combine sources).value = .ok out) :
  countText out = (sources.map fun source => countText source.text).sum
  := by
  have htabs : ∀ tab ∈ sources.filterMap tab?, PlainTab tab := by
    intro tab htab
    obtain ⟨source, hsource, htab⟩ := List.mem_filterMap.mp htab
    exact (hs source hsource).plainTab_of_tab?.1 tab htab
  obtain ⟨-, rfl⟩ := of_combine_eq_ok h
  rw [countText_assemble htabs, sum_cost_tabs hs]

theorem countText_combine_two_cartridges :
  (∀ source ∈ [(⟨"a.p8".toList, "pico-8 cartridge\nversion 8\n__lua__\n".toList
        ++ "  x=1 --y\n\n".toList ++ "__gfx__\n00\n".toList⟩ : Source),
      ⟨"b.p8".toList, "pico-8 cartridge\r\nversion 41\r\n__lua__\r\n".toList
        ++ "print(x)".toList ++ [] ⟩], source.IsPlain)
    ∧ ∃ out : Text,
      (combine [⟨"a.p8".toList, "pico-8 cartridge\nversion 8\n__lua__\n".toList
          ++ "  x=1 --y\n\n".toList ++ "__gfx__\n00\n".toList⟩,
        ⟨"b.p8".toList, "pico-8 cartridge\r\nversion 41\r\n__lua__\r\n".toList
          ++ "print(x)".toList ++ [] ⟩]).value = .ok out
        ∧ countText out = 6
  := by
  have hs : ∀ source ∈ [(⟨"a.p8".toList, "pico-8 cartridge\nversion 8\n__lua__\n".toList
        ++ "  x=1 --y\n\n".toList ++ "__gfx__\n00\n".toList⟩ : Source),
      ⟨"b.p8".toList, "pico-8 cartridge\r\nversion 41\r\n__lua__\r\n".toList
        ++ "print(x)".toList ++ [] ⟩], source.IsPlain := by
    simp only [List.forall_mem_cons]
    refine ⟨⟨by decide, by decide +kernel, ?_⟩, ⟨by decide, by decide +kernel, ?_⟩,
      List.forall_mem_nil _⟩
    · exact .mk rfl (by decide) (by decide)
        ⟨by decide +kernel, by decide +kernel,
          stripHeader_of_not_header rfl (by decide) (by decide)⟩
        ⟨.inr ⟨_, by decide, rfl⟩, by decide⟩ (.inr (.inr rfl)) (.inr (.inr rfl))
    · exact .mk rfl (by decide) (by decide)
        ⟨by decide +kernel, by decide +kernel,
          stripHeader_of_not_header rfl (by decide) (by decide)⟩
        ⟨.inl rfl, by decide⟩ (.inr (.inr rfl)) (.inl rfl)
  exact ⟨hs, _, rfl, (countText_combine hs rfl).trans (by decide +kernel)⟩

end Bundle

end CartTokens
