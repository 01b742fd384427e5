import CartTokens.Proofs.Kind

/-!
# Scanning printed tokens

The raw tokens of a line can be printed with a blank between neighbours (`Line.respaced`).

* A blank separates: a token with a blank after it is scanned apart from what follows
  (`Raw.Separable`), unless it is a string left open, and such a string comes last.
* What is printed is code (`Line.IsCode`): it has no white space at its ends and holds no mark
  of a comment.
* Only single dots get lost: they are chunks of longer runs, and the blanks cut the runs.  They
  have no part in merging, so the tokens that are counted stay the same.
-/

namespace CartTokens

open Text

/-! ### Code -/

namespace Line

/-- A line without comment is one in which no mark of a comment stands anywhere. -/
theorem stripComment_eq_self_iff (t : Text) :
  stripComment t = t ↔ ∀ u, u <:+ t → ¬ startsComment u
  := by
  induction t with
  | nil => simp [stripComment, startsComment_iff, lineMarkers]
  | cons c t ih =>
    rw [stripComment]
    split
    · rename_i h
      apply iff_of_false (List.cons_ne_nil c t).symm
      intro hnone
      apply hnone (c :: t) (List.suffix_refl _) h
    · rename_i h
      rw [List.cons.injEq, ih]
      constructor
      · rintro ⟨-, hnone⟩ u hu
        rw [List.suffix_cons_iff] at hu
        obtain rfl | hu := hu
        · apply h
        · apply hnone u hu
      · intro hnone
        refine ⟨rfl, fun u hu => ?_⟩
        apply hnone
        apply hu.trans (List.suffix_cons c t)

theorem stripComment_stripComment (t : Text) :
  stripComment (stripComment t) = stripComment t
  := by
  induction t with
  | nil => rfl
  | cons c t ih =>
    rw [stripComment]
    split
    · rfl
    · rename_i h
      have hstart : ¬ startsComment (c :: stripComment t) := by
        intro hs
        apply h
        apply startsComment_mono _ hs
        apply List.cons_prefix_cons.mpr ⟨rfl, isPrefix_stripComment t⟩
      rw [stripComment, if_neg hstart, ih]

theorem stripComment_of_isInfix {s t : Text} (h : s <:+: t) (ht : stripComment t = t) :
  stripComment s = s
  := by
  rw [stripComment_eq_self_iff] at ht ⊢
  rintro u ⟨x, rfl⟩ hu
  obtain ⟨v, w, rfl⟩ := h
  apply ht (u ++ w) ⟨v ++ x, by simp⟩
  apply startsComment_mono (List.prefix_append u w) hu

/-- A comment begins in the first of two texts or in the second, if no mark stands across. -/
theorem stripComment_append_of {s t : Text}
    (h : ∀ u, u ≠ [] → u <:+ s → startsComment (u ++ t) → startsComment u) :
  stripComment (s ++ t) = if stripComment s = s then s ++ stripComment t else stripComment s
  := by
  induction s with
  | nil => rfl
  | cons c s ih =>
    have hstart : startsComment (c :: (s ++ t)) = startsComment (c :: s) := by
      rw [Bool.eq_iff_iff]
      constructor
      · apply h (c :: s) (List.cons_ne_nil c s) List.suffix_rfl
      · apply startsComment_mono (List.prefix_append (c :: s) t)
    have hrest := ih fun u hne hu => h u hne (hu.trans (List.suffix_cons c s))
    rw [List.cons_append, stripComment, stripComment, hstart, hrest]
    split
    · rw [if_neg (List.cons_ne_nil c s).symm]
    · by_cases hs : stripComment s = s
      · rw [hs, if_pos rfl, if_pos rfl, List.cons_append]
      · rw [if_neg hs, if_neg fun heq => hs (List.cons.inj heq).2]

/-- A comment begins before a character that is in no mark, or after it. -/
theorem stripComment_append_cons {c : Char} (hc : ∀ mark ∈ lineMarkers, c ∉ mark) (s t : Text) :
  stripComment (s ++ c :: t)
    = if stripComment s = s then s ++ c :: stripComment t else stripComment s
  := by
  have hcons : stripComment (c :: t) = c :: stripComment t := by
    rw [stripComment, startsComment_cons hc]
    rfl
  rw [stripComment_append_of fun _ _ _ => startsComment_of_append_cons hc, hcons]

/-- Characters of a class form no mark of a comment if every mark has one outside the class. -/
theorem stripComment_of_forall {p : Char → Bool}
    (hmarks : ∀ mark ∈ lineMarkers, mark.any fun c => !p c) {t : Text} (h : ∀ c ∈ t, p c) :
  stripComment t = t
  := by
  rw [stripComment_eq_self_iff]
  intro u hu hstart
  obtain ⟨mark, hmark, hstarts⟩ := (startsComment_iff u).mp hstart
  obtain ⟨c, hc, hnot⟩ := List.any_eq_true.mp (hmarks mark hmark)
  rw [h c (hu.subset (hstarts.subset hc))] at hnot
  contradiction

/-- The text is the code of a line that is not idle. -/
structure IsCode (t : Text) : Prop where
  ne_nil : t ≠ []
  trim_eq : trim t = t
  stripComment_eq : stripComment t = t

/-- Dots and characters that names may hold are code. -/
theorem isCode_of_forall {t : Text} (hne : t ≠ [])
    (h : ∀ c ∈ t, Lexeme.isNumberChar isNameChar c) :
  IsCode t
  := by
  constructor
  case ne_nil => exact hne
  case trim_eq =>
    apply trim_eq_self
    intro c hc hspace
    have hsep := separates_of_isBlank (isBlank_of_isSpace hspace)
    apply Lexeme.not_isNumberChar_of_separates (fun _ => id) hsep (h c hc)
  case stripComment_eq => apply stripComment_of_forall (by decide) h

theorem isCode_of_isName {t : Text} (h : isName t) :
  IsCode t
  := by
  obtain _ | ⟨c, t⟩ := t
  · contradiction
  rw [isName, Bool.and_eq_true, List.all_eq_true] at h
  apply isCode_of_forall (List.cons_ne_nil c t)
  rw [List.forall_mem_cons, Lexeme.isNumberChar, isNameChar_of_isNameStart h.1, Bool.or_true]
  refine ⟨rfl, fun d hd => ?_⟩
  rw [Lexeme.isNumberChar, h.2 d hd, Bool.or_true]

theorem IsCode.raws_eq {t : Text} (h : IsCode t) :
  raws t = collapse (scan t)
  := by
  rw [raws_eq_collapse, code, h.stripComment_eq, h.trim_eq]

theorem IsCode.append_space {s t : Text} (hs : IsCode s) (ht : IsCode t) {c : Char}
    (hc : isSpace c) :
  IsCode (s ++ c :: t)
  := by
  constructor
  case ne_nil => apply List.append_ne_nil_of_left_ne_nil hs.ne_nil
  case trim_eq =>
    have hstart := ((trim_eq_self_iff s).mp hs.trim_eq).1
    have hend := ((trim_eq_self_iff t).mp ht.trim_eq).2
    rw [trim_eq_self_iff, List.head?_append_of_ne_nil _ hs.ne_nil, List.append_cons,
      List.getLast?_append_of_ne_nil _ ht.ne_nil]
    exact ⟨hstart, hend⟩
  case stripComment_eq =>
    rw [stripComment_append_cons (not_mem_lineMarkers_of_isSpace hc), if_pos hs.stripComment_eq,
      ht.stripComment_eq]

/-- Code printed with blanks between is code. -/
theorem isCode_join {ts : List Text} (hne : ts ≠ []) (h : ∀ t ∈ ts, IsCode t) :
  IsCode (join [' '] ts)
  := by
  induction ts with
  | nil => contradiction
  | cons t ts ih =>
    rw [List.forall_mem_cons] at h
    cases ts with
    | nil =>
      rw [join, List.intercalate_singleton]
      exact h.1
    | cons u ts =>
      rw [join, List.intercalate_cons_cons, List.append_assoc, List.singleton_append]
      apply h.1.append_space _ (by decide)
      apply ih (List.cons_ne_nil u ts) h.2

end Line

/-! ### Raw tokens on their own -/

/-- The raw token of a single dot. -/
def Raw.dot : Raw := ⟨.dots, ['.']⟩

/-- Scanned alone, the token gives itself, or nothing if it is a single dot. -/
def Raw.Stable (r : Raw) : Prop :=
  scan r.text = [r].filter (· != .dot)

/-- Scanned with a blank after it, the token gives what it gives alone, and the text after the
blank gives what that gives alone. -/
def Raw.Separable (r : Raw) : Prop :=
  ∀ t, scan (r.text ++ ' ' :: t) = [r].filter (· != .dot) ++ scan t

/-- Tokens printed with blanks between are scanned apart. -/
theorem scan_join {rs : List Raw} (h : ∀ r ∈ rs, r.Stable)
    (hchain : rs.IsChain fun r _ => r.Separable) :
  scan (join [' '] (rs.map Raw.text)) = rs.filter (· != .dot)
  := by
  induction rs with
  | nil =>
    rw [List.map_nil, join, List.intercalate_nil, scan, Lexeme.cut]
    rfl
  | cons r rs ih =>
    rw [List.forall_mem_cons] at h
    cases rs with
    | nil =>
      rw [List.map_singleton, join, List.intercalate_singleton]
      apply h.1
    | cons s rs =>
      rw [List.isChain_cons_cons] at hchain
      have hrest := ih h.2 hchain.2
      rw [join, List.map_cons] at hrest
      rw [join, List.map_cons, List.map_cons, List.intercalate_cons_cons, List.append_assoc,
        List.singleton_append, hchain.1, hrest, ← List.filter_append, List.singleton_append]

namespace Lexeme

variable {l : Lexeme} {rest : Text} {r : Raw}

/-- The raw tokens of a run of dots are its chunks; any other lexeme has at most one, with the
text of the lexeme. -/
theorem cases_of_mem_raws (h : r ∈ l.raws) :
  (∃ k, 1 ≤ k ∧ k ≤ 4 ∧ r = chunk k)
    ∨ (l.raws = [r] ∧ r.text = l.text ∧ r.shape ≠ .dots)
  := by
  cases l with
  | blank c => exact absurd h List.not_mem_nil
  | dots n =>
    left
    rw [raws] at h
    split at h
    · exact absurd h List.not_mem_nil
    · obtain ⟨k, hk, rfl⟩ := List.mem_map.mp h
      obtain ⟨hpos, hle⟩ := mem_dotChunks (by omega) hk
      exact ⟨k, hpos, hle, rfl⟩
  | name t =>
    obtain rfl := List.mem_singleton.mp h
    exact .inr ⟨rfl, rfl, Shape.noConfusion⟩
  | number t =>
    obtain rfl := List.mem_singleton.mp h
    exact .inr ⟨rfl, rfl, Shape.noConfusion⟩
  | string t =>
    obtain rfl := List.mem_singleton.mp h
    exact .inr ⟨rfl, rfl, Shape.noConfusion⟩
  | single c =>
    obtain rfl := List.mem_singleton.mp h
    exact .inr ⟨rfl, rfl, Shape.noConfusion⟩

/-- Every raw token is the text of one lexeme, which is the token again or a single dot. -/
theorem Maximal.exists_alone (h : l.Maximal rest) (hr : r ∈ l.raws) :
  ∃ l' : Lexeme, l'.Maximal [] ∧ l'.text = r.text ∧ l'.raws = [r].filter (· != .dot)
    ∧ (l.Closed → l'.Closed)
  := by
  obtain ⟨k, hpos, hle, rfl⟩ | ⟨hraws, htext, hshape⟩ := cases_of_mem_raws hr
  · have hchunks : ∀ k < 5, 1 ≤ k → (Lexeme.dots k).raws = [chunk k].filter (· != .dot) := by decide
    use .dots k
    refine ⟨?_, rfl, hchunks k (by omega) hpos, fun _ => nofun⟩
    rw [← Nat.sub_add_cancel hpos]
    apply Maximal.dots (stopsAt_nil _)
  · use l, h.at_end, htext.symm
    have hdot : r ≠ .dot := fun heq => hshape (congrArg Raw.shape heq)
    rw [List.filter_singleton, bne_iff_ne.mpr hdot, hraws]
    exact ⟨rfl, id⟩

theorem Maximal.stable (h : l.Maximal rest) (hr : r ∈ l.raws) :
  r.Stable
  := by
  obtain ⟨l', hl', htext, hraws, -⟩ := h.exists_alone hr
  rw [Raw.Stable, ← htext, scan, hl'.cut_text, List.flatMap_singleton, hraws]

theorem Maximal.separable (h : l.Maximal rest) (hclosed : l.Closed) (hr : r ∈ l.raws) :
  r.Separable
  := by
  obtain ⟨l', hl', htext, hraws, hkeeps⟩ := h.exists_alone hr
  intro t
  have hcut : cut (l'.text ++ ' ' :: t) = [l'] ++ .blank ' ' :: cut t := by
    rw [cut_append_blank _ (by decide), hl'.cut_text]
    rw [hl'.cut_text, List.forall_mem_singleton]
    apply hkeeps hclosed
  rw [← htext, scan, hcut, List.flatMap_append, List.flatMap_singleton, hraws, List.flatMap_cons]
  rfl

/-- Only a run of dots has several raw tokens, and its chunks are separable. -/
theorem Maximal.isChain_separable (h : l.Maximal rest) :
  l.raws.IsChain fun r _ => r.Separable
  := by
  cases l with
  | blank c => exact .nil
  | dots n =>
    apply List.Pairwise.isChain
    apply List.pairwise_of_forall_mem_list
    intro r hr _ _
    apply h.separable nofun hr
  | name t => exact .singleton _
  | number t => exact .singleton _
  | string t => exact .singleton _
  | single c => exact .singleton _

/-- In a cut only the last raw token can be a string left open. -/
theorem IsCut.isChain_separable {ls : List Lexeme} (h : IsCut ls) :
  (ls.flatMap raws).IsChain fun r _ => r.Separable
  := by
  induction ls with
  | nil => exact .nil
  | cons l ls ih =>
    rw [isCut_cons] at h
    rw [List.flatMap_cons, List.isChain_append]
    refine ⟨h.1.isChain_separable, ih h.2, ?_⟩
    intro r hr s hs
    -- a token follows, so the text goes on after the lexeme
    apply h.1.separable _ (List.mem_of_getLast? hr)
    apply h.1.closed
    cases ls with
    | nil => contradiction
    | cons l' ls =>
      have hnext := ((isCut_cons l' ls).mp h.2).1
      rw [List.flatMap_cons]
      apply List.append_ne_nil_of_left_ne_nil hnext.text_ne_nil

/-- A raw token of a lexeme has no white space at its ends, if there is none at the end of the
whole text. -/
theorem Maximal.trim_text (h : l.Maximal rest) (hr : r ∈ l.raws)
    (hend : rest = [] → ∀ c ∈ l.text.getLast?, ¬ isSpace c) :
  trim r.text = r.text
  := by
  have hsolid : ∀ {c}, ¬ isBlank c → ¬ isSpace c :=
    fun hblank hspace => hblank (isBlank_of_isSpace hspace)
  obtain ⟨c, rfl⟩ | hnone | ⟨quote, t, rfl, hquote, htail⟩ := h.cases_blank
  · exact absurd hr List.not_mem_nil
  · apply trim_eq_self
    intro c hc
    apply hsolid
    apply hnone
    apply (isInfix_text_of_mem_raws hr).subset hc
  · obtain rfl := List.mem_singleton.mp hr
    have hmark := hsolid (not_isBlank_of_isQuote hquote)
    rw [trim_eq_self_iff]
    constructor
    · simpa using hmark
    · cases htail with
      | closed ht =>
        rw [← List.cons_append, List.getLast?_append_of_ne_nil _ (List.cons_ne_nil quote [])]
        simpa using hmark
      | unclosed ht => apply hend rfl
      | cutEscape ht => apply hend rfl

end Lexeme

/-! ### Lines -/

namespace Line

/-- The raw tokens of code are code again. -/
theorem isCode_of_mem_scan {t : Text} (htrim : trim t = t) (hstrip : stripComment t = t)
    {r : Raw} (hr : r ∈ scan t) :
  IsCode r.text
  := by
  obtain ⟨l, hl, hraw⟩ := List.mem_flatMap.mp hr
  obtain ⟨before, rest, htext, hmax⟩ := Lexeme.exists_eq_append_of_mem_cut hl
  constructor
  case ne_nil => apply (hmax.sound r hraw).text_ne_nil
  case trim_eq =>
    -- a string left open ends where the text ends
    apply hmax.trim_text hraw
    intro hrest
    rw [hrest, List.append_nil] at htext
    rw [← List.getLast?_append_of_ne_nil _ hmax.text_ne_nil, ← htext]
    apply ((trim_eq_self_iff t).mp htrim).2
  case stripComment_eq =>
    apply stripComment_of_isInfix _ hstrip
    apply (Lexeme.isInfix_text_of_mem_raws hraw).trans
    use before, rest
    rw [List.append_assoc, ← htext]

theorem isCode_of_mem_raws {line : Text} {r : Raw} (hr : r ∈ raws line) :
  IsCode r.text
  := by
  rcases raws_cases line with h | ⟨t, ht, h⟩
  · rw [h] at hr
    apply isCode_of_mem_scan (trim_trim _) _ hr
    apply stripComment_of_isInfix (isInfix_code line) (stripComment_stripComment line)
  · rw [h] at hr
    obtain rfl := List.mem_singleton.mp hr
    apply isCode_of_isName (isName_of_isGlyphRun ht)

theorem isChain_separable_raws (line : Text) :
  (raws line).IsChain fun r _ => r.Separable
  := by
  rcases raws_cases line with h | ⟨t, -, h⟩
  · rw [h]
    apply (Lexeme.isCut_cut (code line)).isChain_separable
  · rw [h]
    exact .singleton _

/-! ### Collapsing -/

theorem collapse_raws (line : Text) :
  collapse (raws line) = raws line
  := by
  rw [raws_eq_collapse]
  rcases collapse_cases (scan (code line)) with h | ⟨t, -, h⟩
  · rw [h, h]
  · rw [h]
    rfl

theorem collapse_of_mem {ts : List Raw} {r : Raw} (hr : r ∈ ts) (h : ¬ isGlyphRun r.text) :
  collapse ts = ts
  := by
  rw [collapse, if_neg]
  rw [Bool.and_eq_true, List.all_eq_true]
  intro hall
  apply h (hall.2 r hr)

/-- A line with a single dot among its raw tokens has one of three or four dots too. -/
theorem exists_mem_dotRuns {line : Text} (h : Raw.dot ∈ raws line) :
  ∃ r ∈ raws line, r.text ∈ dotRuns
  := by
  have hchain := isChain_raws line
  obtain ⟨before, after, heq⟩ := List.append_of_mem h
  rw [heq] at hchain ⊢
  cases before using List.reverseRecOn with
  | nil =>
    rw [List.nil_append, List.map_cons, List.isChain_cons_cons] at hchain
    exact absurd (hchain.1 rfl) (by decide)
  | append_singleton before r =>
    refine ⟨r, by simp, ?_⟩
    have hpair : [r.text, Raw.dot.text]
        <:+: [] :: (before ++ [r] ++ Raw.dot :: after).map Raw.text := by
      use [] :: before.map Raw.text, after.map Raw.text
      simp
    have hstep := List.IsChain.infix hchain hpair
    apply List.isChain_pair.mp hstep rfl

theorem collapse_raws_filter (line : Text) :
  collapse ((raws line).filter (· != .dot)) = (raws line).filter (· != .dot)
  := by
  by_cases hdot : Raw.dot ∈ raws line
  · -- the dots before the single dot stay, so what is left is not all glyphs
    obtain ⟨r, hr, hruns⟩ := exists_mem_dotRuns hdot
    have hkept : ∀ t ∈ dotRuns, t ≠ Raw.dot.text ∧ ¬ isGlyphRun t := by decide
    obtain ⟨hne, hglyphs⟩ := hkept r.text hruns
    apply collapse_of_mem _ hglyphs
    rw [List.mem_filter, bne_iff_ne]
    exact ⟨hr, fun heq => hne (congrArg Raw.text heq)⟩
  · rw [List.filter_eq_self.mpr, collapse_raws]
    intro r hr
    rw [bne_iff_ne]
    rintro rfl
    contradiction

/-! ### Printed lines -/

/-- The raw tokens of the line printed with a blank between neighbours. -/
def respaced (line : Text) : Text :=
  join [' '] ((raws line).map Raw.text)

/-- A printed line has the raw tokens it was printed from, except single dots. -/
theorem raws_respaced (line : Text) :
  raws (respaced line) = (raws line).filter (· != .dot)
  := by
  by_cases hnil : raws line = []
  · rw [respaced, hnil]
    rfl
  · have hcode : IsCode (respaced line) := by
      apply isCode_join
      · simpa using hnil
      · intro t ht
        obtain ⟨r, hr, rfl⟩ := List.mem_map.mp ht
        apply isCode_of_mem_raws hr
    rw [hcode.raws_eq, respaced, scan_join, collapse_raws_filter]
    · intro r hr
      obtain ⟨l, rest, hl, hraw⟩ := exists_maximal_of_mem_raws hr
      apply hl.stable hraw
    · apply isChain_separable_raws

end Line

theorem Raw.Sound.eq_dot_iff {r : Raw} (h : r.Sound) :
  r = .dot ↔ r.text = ['.']
  := by
  constructor
  · rintro rfl
    rfl
  · intro htext
    cases h with
    | identifier ht _ =>
      subst htext
      contradiction
    | number ht _ _ =>
      subst htext
      contradiction
    | string hkind =>
      subst htext
      contradiction
    | dots _ _ =>
      rw [dot, ← htext]
    | single hc _ => exact absurd (List.singleton_inj.mp htext) hc.not_dot

namespace Line

/-- A printed line has the merged tokens of the line, except single dots. -/
theorem merged_respaced (line : Text) :
  merged (respaced line) = (merged line).filter (· != ['.'])
  := by
  have htexts : ((raws line).filter (· != .dot)).map Raw.text
      = ((raws line).map Raw.text).filter (· != ['.']) := by
    rw [List.filter_map]
    congr 1
    apply List.filter_congr
    intro r hr
    rw [Function.comp_apply, Bool.eq_iff_iff, bne_iff_ne, bne_iff_ne]
    apply not_congr (sound_of_mem_raws line r hr).eq_dot_iff
  rw [merged, raws_respaced, htexts, merged]
  apply merge_filter_dot (isChain_raws line).of_cons
  intro t
  apply ne_nil_of_mem_texts

/-- A printed line has the tokens of the line: a single dot is a separator. -/
theorem tokens_respaced (line : Text) :
  tokens (respaced line) = tokens line
  := by
  have hdot : structural.contains ['.'] := by decide
  rw [tokens, merged_respaced, List.filter_filter, tokens]
  congr 1
  apply List.filter_congr
  intro t _
  by_cases ht : t = ['.']
  · rw [ht, hdot]
    rfl
  · rw [bne_iff_ne.mpr ht, Bool.and_true]

/-- The raw tokens of a line, printed with blanks between and scanned again, are the same except
that single dots are left out, and the printed line costs what the line costs. -/
theorem raws_count_respaced (line : Text) :
  raws (respaced line) = (raws line).filter (· != .dot)
    ∧ count (respaced line) = count line
  := by
  constructor
  · apply raws_respaced
  · rw [count, tokens_respaced, count]

end Line

end CartTokens
