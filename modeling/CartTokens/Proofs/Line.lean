import CartTokens.Line
import CartTokens.Proofs.Comment

/-!
# Lines of code

White space around a line has no part in its tokens (`Line.tokens_trim`), so lines cost what
their content costs (`Line.sum_count_eq_of_trim`).  The raw tokens of a lexeme hold its
characters, except that blanks and single dots are skipped (`Lexeme.flatMap_text_raws`), so the
tokens of a line hold no character that the line does not hold (`Line.mem_of_mem_tokens`).
-/

namespace CartTokens

open Text

/-! ### Trimming a line -/

theorem not_mem_lineMarkers_of_isSpace {c : Char} (hc : isSpace c) :
  ∀ mark ∈ lineMarkers, c ∉ mark
  := by
  have hsigns : ∀ mark ∈ lineMarkers, mark.all fun c => !isSpace c := by decide
  intro mark hmark hmem
  exact not_isSpace_of_all (hsigns mark hmark) c hmem hc

namespace Line

theorem startsComment_iff (t : Text) :
  startsComment t ↔ ∃ mark ∈ lineMarkers, mark <+: t
  := by
  rw [startsComment, List.any_eq_true]
  apply exists_congr
  intro mark
  apply and_congr_right'
  rw [startsWith, Option.isSome_iff_exists]
  apply exists_congr
  intro rest
  rw [after?_eq_some_iff, eq_comm]

theorem startsComment_mono {s t : Text} (h : s <+: t) (hs : startsComment s) :
  startsComment t
  := by
  rw [startsComment_iff] at hs ⊢
  obtain ⟨mark, hmark, hstarts⟩ := hs
  use mark, hmark
  apply hstarts.trans h

/-- A mark of a comment does not reach over a character that is in no mark. -/
theorem startsComment_of_append_cons {c : Char} (hc : ∀ mark ∈ lineMarkers, c ∉ mark)
    {s t : Text} (h : startsComment (s ++ c :: t)) :
  startsComment s
  := by
  rw [startsComment_iff] at h ⊢
  obtain ⟨mark, hmark, hstarts⟩ := h
  use mark, hmark
  apply isPrefix_of_append_cons (hc mark hmark) hstarts

theorem startsComment_append_blank (t : Text) {w : Text} (hw : isBlankLine w) :
  startsComment (t ++ w) = startsComment t
  := by
  cases w with
  | nil => rw [List.append_nil]
  | cons c w =>
    rw [isBlankLine_iff, List.forall_mem_cons] at hw
    rw [Bool.eq_iff_iff]
    constructor
    · apply startsComment_of_append_cons (not_mem_lineMarkers_of_isSpace hw.1)
    · apply startsComment_mono (List.prefix_append t (c :: w))

theorem startsComment_cons {c : Char} (hc : ∀ mark ∈ lineMarkers, c ∉ mark) (cs : Text) :
  startsComment (c :: cs) = false
  := by
  rw [Bool.eq_false_iff]
  intro h
  have hnil : startsComment [] := startsComment_of_append_cons hc h
  exact absurd hnil (by decide)

theorem stripComment_blank_append {w : Text} (hw : isBlankLine w) (t : Text) :
  stripComment (w ++ t) = w ++ stripComment t
  := by
  induction w with
  | nil => rfl
  | cons c w ih =>
    rw [isBlankLine_iff, List.forall_mem_cons, ← isBlankLine_iff] at hw
    rw [List.cons_append, stripComment,
      startsComment_cons (not_mem_lineMarkers_of_isSpace hw.1), ih hw.2]
    rfl

/-- White space after a line is kept or goes with the comment. -/
theorem stripComment_append_blank (t : Text) {w : Text} (hw : isBlankLine w) :
  ∃ w' : Text, isBlankLine w' ∧ stripComment (t ++ w) = stripComment t ++ w'
  := by
  induction t with
  | nil =>
    use w, hw
    have h := stripComment_blank_append hw []
    rw [List.append_nil] at h
    exact h.trans (List.append_nil w)
  | cons c t ih =>
    obtain ⟨w', hw', ih⟩ := ih
    have hstart := startsComment_append_blank (c :: t) hw
    rw [List.cons_append] at hstart
    rw [List.cons_append, stripComment, stripComment, hstart]
    split
    · exact ⟨[], rfl, rfl⟩
    · rw [ih]
      exact ⟨w', hw', rfl⟩

/-- Trimming a line leaves its code as it is. -/
theorem code_trim (line : Text) :
  code (trim line) = code line
  := by
  obtain ⟨v, w, hv, hw, hline⟩ := exists_eq_append_trim line
  obtain ⟨w', hw', hstrip⟩ := stripComment_append_blank (trim line) hw
  unfold code
  nth_rewrite 2 [hline]
  rw [List.append_assoc, stripComment_blank_append hv, hstrip, trim_blank_append hv,
    trim_append_blank _ hw']

/-- An idle line has no code. -/
theorem code_of_isIdle {line : Text} (h : isIdle line) :
  code line = []
  := by
  rw [isIdle, Bool.or_eq_true, List.isEmpty_iff] at h
  rw [← code_trim]
  obtain hnil | hstart := h
  · rw [hnil]
    rfl
  · have hstrip : stripComment (trim line) = [] := by
      unfold stripComment
      split
      · rfl
      · rename_i c cs heq
        rw [heq] at hstart
        rw [if_pos hstart]
    rw [code, hstrip]
    rfl

/-- The raw tokens of a line are those of its code, also if it is idle. -/
theorem raws_eq_collapse (line : Text) :
  raws line = collapse (scan (code line))
  := by
  unfold raws
  split
  · rename_i hidle
    rw [code_of_isIdle hidle, scan, Lexeme.cut]
    rfl
  · rfl

/-- What a line costs depends on its code alone. -/
theorem count_eq_of_code_eq {l l' : Text} (h : code l = code l') :
  count l = count l'
  := by
  rw [count, tokens, merged, raws_eq_collapse, h, ← raws_eq_collapse, count, tokens, merged]

/-- A line has the tokens of its trimmed form. -/
theorem tokens_trim (line : Text) :
  tokens (trim line) = tokens line
  := by
  unfold tokens merged raws isIdle
  rw [trim_trim, code_trim]

theorem count_trim (line : Text) :
  count (trim line) = count line
  := by
  rw [count, tokens_trim, count]

theorem tokens_nil :
  tokens [] = []
  := by
  have hidle : isIdle [] := by decide
  simp [tokens, merged, raws, hidle, merge, groups]

theorem count_nil :
  count [] = 0
  := by
  rw [count, tokens_nil]
  rfl

theorem count_of_startsComment {line : Text} (h : startsComment line) :
  count line = 0
  := by
  have hstrip : stripComment line = [] := by
    cases line with
    | nil => rfl
    | cons c line => rw [stripComment, if_pos h]
  rw [← count_nil]
  apply count_eq_of_code_eq
  rw [code, hstrip]
  rfl

/-- Lines cost what their content costs. -/
theorem sum_count_eq_of_trim (ls : List Text) :
  (ls.map count).sum
    = (((ls.map trim).filter fun line => !line.isEmpty).map count).sum
  := by
  induction ls with
  | nil => rfl
  | cons l ls ih =>
    rw [List.map_cons, List.sum_cons, List.map_cons, List.filter_cons, ih]
    split
    · rw [List.map_cons, List.sum_cons, count_trim]
    · rename_i h
      have hnil : trim l = [] := by simpa using h
      rw [← count_trim, hnil, count_nil, Nat.zero_add]

end Line

/-! ### The characters of tokens -/

namespace Lexeme

/-- The lexeme has no raw tokens: it is a blank or a single dot. -/
def isSkipped : Lexeme → Bool
  | .blank _ => true
  | .dots n => n == 1
  | _ => false

theorem sum_threes (n : Nat) :
  (threes n).sum = n
  := by
  fun_induction threes n with
  | case1 => rfl
  | case2 => rfl
  | case3 => rfl
  | case4 n ih =>
    rw [List.sum_cons, ih]
    omega

theorem sum_dotChunks (n : Nat) :
  (dotChunks n).sum = n
  := by
  unfold dotChunks
  split
  · rfl
  · rw [List.sum_cons, sum_threes]
    omega

/-- The raw token of a chunk of dots. -/
def chunk (k : Nat) : Raw := ⟨.dots, List.replicate k '.'⟩

theorem flatMap_text_chunks (ks : List Nat) :
  (ks.map chunk).flatMap Raw.text = List.replicate ks.sum '.'
  := by
  induction ks with
  | nil => rfl
  | cons k ks ih =>
    rw [List.map_cons, List.flatMap_cons, ih, List.sum_cons, chunk, List.replicate_append_replicate]

/-- The raw tokens of a lexeme hold its characters, unless it is skipped. -/
theorem flatMap_text_raws (l : Lexeme) :
  l.raws.flatMap Raw.text = if l.isSkipped then [] else l.text
  := by
  cases l with
  | blank c => rfl
  | dots n =>
    rw [raws]
    split
    · rename_i hn
      obtain rfl | rfl : n = 0 ∨ n = 1 := by omega
      · rfl
      · rfl
    · rename_i hn
      have hskip : (dots n).isSkipped = false := by
        rw [isSkipped, beq_eq_false_iff_ne]
        omega
      rw [hskip, text]
      exact (flatMap_text_chunks (dotChunks n)).trans (by rw [sum_dotChunks]; rfl)
  | name t => exact List.flatMap_singleton _ _
  | number t => exact List.flatMap_singleton _ _
  | string t => exact List.flatMap_singleton _ _
  | single c => rfl

theorem flatMap_text_flatMap_raws (ls : List Lexeme) :
  (ls.flatMap raws).flatMap Raw.text = (ls.filter fun l => !l.isSkipped).flatMap text
  := by
  induction ls with
  | nil => rfl
  | cons l ls ih =>
    rw [List.flatMap_cons, List.flatMap_append, ih, flatMap_text_raws, List.filter_cons]
    cases l.isSkipped with
    | false => rfl
    | true => rfl

/-- The texts of raw tokens are parts of the lexeme. -/
theorem isInfix_text_of_mem_raws {l : Lexeme} {r : Raw} (h : r ∈ l.raws) :
  r.text <:+: l.text
  := by
  have hraw : r.text <:+: l.raws.flatMap Raw.text := by
    rw [List.flatMap_def]
    apply List.infix_of_mem_flatten
    apply List.mem_map_of_mem h
  apply hraw.trans
  rw [flatMap_text_raws]
  split
  · apply List.nil_infix
  · apply List.infix_rfl

end Lexeme

namespace Line

theorem isPrefix_stripComment (t : Text) :
  stripComment t <+: t
  := by
  induction t with
  | nil => exact List.prefix_rfl
  | cons c t ih =>
    rw [stripComment]
    split
    · apply List.nil_prefix
    · exact (List.cons_prefix_cons).mpr ⟨rfl, ih⟩

/-- The code of a line is a part of the line without its comment. -/
theorem isInfix_code (line : Text) :
  code line <:+: stripComment line
  := by
  obtain ⟨v, w, -, -, hstrip⟩ := exists_eq_append_trim (stripComment line)
  use v, w, hstrip.symm

theorem sublist_code (line : Text) :
  (code line).Sublist line
  := (isInfix_code line).sublist.trans (isPrefix_stripComment line).sublist

theorem mem_of_mem_code {line : Text} {c : Char} (h : c ∈ code line) :
  c ∈ line
  := (sublist_code line).subset h

theorem mem_of_mem_scan {t : Text} {r : Raw} (hr : r ∈ scan t) {c : Char} (hc : c ∈ r.text) :
  c ∈ t
  := by
  obtain ⟨lexeme, hlexeme, hraw⟩ := List.mem_flatMap.mp hr
  rw [← Lexeme.flatMap_text_cut t, List.mem_flatMap]
  exact ⟨lexeme, hlexeme, (Lexeme.isInfix_text_of_mem_raws hraw).subset hc⟩

theorem mem_of_mem_collapse {ts : List Raw} {r : Raw} (hr : r ∈ collapse ts) {c : Char}
    (hc : c ∈ r.text) :
  ∃ r' ∈ ts, c ∈ r'.text
  := by
  unfold collapse at hr
  split at hr
  · rw [List.mem_singleton] at hr
    subst hr
    exact List.mem_flatMap.mp hc
  · exact ⟨r, hr, hc⟩

theorem mem_of_mem_raws {line : Text} {r : Raw} (hr : r ∈ raws line) {c : Char}
    (hc : c ∈ r.text) :
  c ∈ line
  := by
  rw [raws_eq_collapse] at hr
  obtain ⟨r', hr', hc'⟩ := mem_of_mem_collapse hr hc
  exact mem_of_mem_code (mem_of_mem_scan hr' hc')

theorem mem_of_mem_merge {ts : List Text} {m : Text} (hm : m ∈ merge ts) {c : Char}
    (hc : c ∈ m) :
  ∃ t ∈ ts, c ∈ t
  := by
  obtain ⟨group, hgroup, rfl⟩ := List.mem_map.mp hm
  obtain ⟨t, ht, hct⟩ := List.mem_flatten.mp hc
  refine ⟨t, ?_, hct⟩
  rw [← flatten_groups none ts]
  exact List.mem_flatten.mpr ⟨group, hgroup, ht⟩

/-- The tokens of a line hold only characters of the line. -/
theorem mem_of_mem_tokens {line : Text} {token : Token} (h : token ∈ tokens line) {c : Char}
    (hc : c ∈ token.text) :
  c ∈ line
  := by
  obtain ⟨m, hm, rfl⟩ := List.mem_map.mp h
  obtain ⟨text, htext, hct⟩ := mem_of_mem_merge (List.mem_filter.mp hm).1 hc
  obtain ⟨r, hr, rfl⟩ := List.mem_map.mp htext
  exact mem_of_mem_raws hr hct

end Line

end CartTokens
