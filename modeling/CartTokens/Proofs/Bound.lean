import CartTokens.Proofs.Count
import CartTokens.Proofs.Kind
import Mathlib.Algebra.Order.BigOperators.Group.List
import Mathlib.Algebra.Order.Group.Nat

/-!
# The count is bounded by the size

Every token that is counted owns a character that is not blank.

* A lexeme has at most as many raw tokens as characters that are not blank, and merging,
  collapsing and leaving out tokens only makes them fewer.  So a line costs at most its
  characters that are not blank (`Line.count_le_solid`).
* The lines of code are parts of the cartridge, and a text has at most as many characters as
  it has bytes.

Hence a counter that holds the size of a file holds every number met in counting it
(`count_bounded`).
-/

namespace CartTokens

open Text

/-- The number of characters that are not blank. -/
def solid (t : Text) : Nat :=
  t.countP fun c => !isBlank c

theorem solid_append (s t : Text) :
  solid (s ++ t) = solid s + solid t
  := List.countP_append

theorem solid_le_of_sublist {s t : Text} (h : s.Sublist t) :
  solid s ≤ solid t
  := h.countP_le

theorem solid_eq_length {t : Text} (h : ∀ c ∈ t, ¬ isBlank c) :
  solid t = t.length
  := by
  rw [solid, List.countP_eq_length]
  intro c hc
  rw [Bool.not_eq_true', Bool.eq_false_iff]
  apply h c hc

/-! ### Lines -/

namespace Lexeme

theorem length_le_length_flatMap_text {rs : List Raw} (h : ∀ r ∈ rs, r.Sound) :
  rs.length ≤ (rs.flatMap Raw.text).length
  := by
  induction rs with
  | nil => exact le_rfl
  | cons r rs ih =>
    rw [List.forall_mem_cons] at h
    have hpos := List.length_pos_iff.mpr h.1.text_ne_nil
    have hrest := ih h.2
    rw [List.length_cons, List.flatMap_cons, List.length_append]
    omega

/-- A lexeme has at most as many raw tokens as characters that are not blank. -/
theorem Maximal.length_raws_le {l : Lexeme} {rest : Text} (h : l.Maximal rest) :
  l.raws.length ≤ solid l.text
  := by
  obtain ⟨c, rfl⟩ | hnone | ⟨quote, t, rfl, hquote, -⟩ := h.cases_blank
  · apply Nat.zero_le
  · -- also a run of dots: its chunks are not empty and hold no more than the run
    rw [solid_eq_length hnone]
    apply (length_le_length_flatMap_text h.sound).trans
    rw [flatMap_text_raws]
    split
    · apply Nat.zero_le
    · exact le_rfl
  · have hmark : solid [quote] = 1 := by
      apply solid_eq_length
      rw [List.forall_mem_singleton]
      apply not_isBlank_of_isQuote hquote
    rw [text, ← List.singleton_append, solid_append, hmark]
    apply Nat.le_add_right

theorem IsCut.length_raws_le {ls : List Lexeme} (h : IsCut ls) :
  (ls.flatMap raws).length ≤ solid (ls.flatMap text)
  := by
  induction ls with
  | nil => exact le_rfl
  | cons l ls ih =>
    rw [isCut_cons] at h
    rw [List.flatMap_cons, List.flatMap_cons, List.length_append, solid_append]
    apply Nat.add_le_add h.1.length_raws_le (ih h.2)

end Lexeme

theorem length_scan_le (t : Text) :
  (scan t).length ≤ solid t
  := by
  have h := (Lexeme.isCut_cut t).length_raws_le
  rwa [Lexeme.flatMap_text_cut] at h

namespace Line

theorem length_collapse_le (ts : List Raw) :
  (collapse ts).length ≤ ts.length
  := by
  unfold collapse
  split
  · rename_i h
    rw [Bool.and_eq_true, decide_eq_true_eq] at h
    apply h.1.le
  · exact le_rfl

/-- A line has at most as many raw tokens as characters that are not blank. -/
theorem length_raws_le (line : Text) :
  (raws line).length ≤ solid line
  := by
  rw [raws_eq_collapse]
  calc
    (collapse (scan (code line))).length ≤ (scan (code line)).length := length_collapse_le _
    _ ≤ solid (code line) := length_scan_le _
    _ ≤ solid line := solid_le_of_sublist (sublist_code line)

theorem weight_le_one (t : Token) :
  t.weight ≤ 1
  := by
  rw [Token.weight]
  cases t.kind <;> decide

theorem count_le_length_raws (line : Text) :
  count line ≤ (raws line).length
  := by
  have hweights : ((tokens line).map Token.weight).sum ≤ (tokens line).length := by
    have h := List.sum_le_card_nsmul ((tokens line).map Token.weight) 1 (by
      intro n hn
      obtain ⟨t, -, rfl⟩ := List.mem_map.mp hn
      apply weight_le_one)
    simpa using h
  calc
    count line ≤ (tokens line).length := hweights
    _ ≤ (merged line).length := by
      rw [tokens, List.length_map]
      apply List.length_filter_le
    _ ≤ (raws line).length := by
      rw [merged, merge, List.length_map]
      apply (length_groups_le _ _).trans_eq (List.length_map _)

/-- A line costs at most its characters that are not blank. -/
theorem count_le_solid (line : Text) :
  count line ≤ solid line
  := (count_le_length_raws line).trans (length_raws_le line)

end Line

/-! ### Texts -/

/-- The lines of a text cost at most its characters that are not blank. -/
theorem sum_count_lines_le (t : Text) :
  ((lines t).map Line.count).sum ≤ solid t
  := by
  calc
    ((lines t).map Line.count).sum = ((pieces t).map fun p => Line.count (chomp p)).sum := by
      rw [lines, List.map_map]
      rfl
    _ ≤ ((pieces t).map solid).sum := by
      apply List.sum_le_sum
      intro p _
      apply (Line.count_le_solid _).trans
      apply solid_le_of_sublist (isPrefix_chomp p).sublist
    _ = solid t := by
      rw [solid, ← flatten_pieces t, List.countP_flatten, flatten_pieces]
      rfl

theorem eq_append_of_findOpener {t before body : Text} {level : Nat}
    (h : findOpener t = some (before, level, body)) :
  t = before ++ commentOpener level ++ body
  := by
  induction t generalizing before with
  | nil => contradiction
  | cons c t ih =>
    cases hopen : opener? (c :: t) with
    | some found =>
      rw [findOpener_of_opener? hopen] at h
      obtain ⟨rfl, hfound⟩ := Prod.mk.inj (Option.some.inj h)
      rw [hfound, opener?_eq_some_iff] at hopen
      rw [hopen, List.nil_append]
    | none =>
      rw [findOpener_of_opener?_eq_none hopen, Option.map_eq_some_iff] at h
      obtain ⟨⟨before', level', body'⟩, hfound, heq⟩ := h
      obtain ⟨rfl, rfl, rfl⟩ : c :: before' = before ∧ level' = level ∧ body' = body := by
        simpa using heq
      rw [ih hfound]
      rfl

theorem isSuffix_of_afterFirst? {mark t rest : Text} (h : afterFirst? mark t = some rest) :
  rest <:+ t
  := by
  induction t with
  | nil => contradiction
  | cons c t ih =>
    rw [afterFirst?] at h
    split at h
    · rename_i hafter
      obtain rfl := Option.some.inj h
      rw [after?_eq_some_iff] at hafter
      rw [hafter]
      apply List.suffix_append
    · apply (ih h).trans (List.suffix_cons c t)

/-- Taking out comments takes characters away. -/
theorem sublist_stripComments (t : Text) :
  (stripComments t).Sublist t
  := by
  unfold stripComments
  fun_induction replaceComments [] t with
  | case1 t hfound => apply List.Sublist.refl
  | case2 t before level body hfound rest hclosed ih =>
    rw [List.append_nil, eq_append_of_findOpener hfound, List.append_assoc]
    apply List.Sublist.append (List.Sublist.refl before)
    apply ih.trans
    apply (isSuffix_of_afterFirst? hclosed).sublist.trans
    apply List.sublist_append_right
  | case3 t before level body hfound hclosed ih =>
    rw [eq_append_of_findOpener hfound]
    apply List.Sublist.append (List.Sublist.refl _) ih

namespace Cartridge

theorem isSuffix_of_firstLine? {ps : List Text} {line rest : Text}
    (h : firstLine? ps = some (line, rest)) :
  rest <:+ ps.flatten
  := by
  induction ps with
  | nil => contradiction
  | cons p ps ih =>
    rw [List.flatten_cons]
    rw [firstLine?] at h
    split at h
    · apply (ih h).trans (List.suffix_append p _)
    · obtain ⟨-, rfl⟩ := Prod.mk.inj (Option.some.inj h)
      apply List.suffix_append

theorem isSuffix_dropLineIf (p : Text → Bool) (t : Text) :
  dropLineIf p t <:+ t
  := by
  unfold dropLineIf
  split
  · rename_i line rest hfirst
    split
    · have hrest := isSuffix_of_firstLine? hfirst
      rwa [flatten_pieces] at hrest
    · apply List.suffix_rfl
  · apply List.suffix_rfl

theorem isSuffix_dropHeader (t : Text) :
  dropHeader t <:+ t
  := by
  apply (isSuffix_dropLineIf _ _).trans
  rw [dropBanner]
  split
  · apply List.suffix_rfl
  · apply (isSuffix_dropLineIf _ _).trans (isSuffix_dropLineIf _ t)

theorem isSuffix_stripHeader (t : Text) :
  stripHeader t <:+ t
  := by
  fun_induction stripHeader t with
  | case1 t _ ih => apply ih.trans (isSuffix_dropHeader t)
  | case2 t _ => apply List.suffix_rfl

theorem isPrefix_truncateSections (t : Text) :
  truncateSections t <+: t
  := by
  obtain ⟨rest, hrest⟩ := List.takeWhile_prefix (l := pieces t)
    fun p => !sectionMarkers.contains (trim p)
  use rest.flatten
  rw [truncateSections, ← List.flatten_append, hrest, flatten_pieces]

/-- The code of a cartridge is a part of the cartridge. -/
theorem isInfix_code (t : Text) :
  code t <:+: t
  := by
  apply (isPrefix_truncateSections _).isInfix.trans
  apply (isSuffix_stripHeader t).isInfix

end Cartridge

/-- The lines of code cost at most the characters of the cartridge that are not blank. -/
theorem sum_count_codeLines_le (t : Text) :
  ((codeLines t).map Line.count).sum ≤ solid t
  := by
  apply (sum_count_lines_le _).trans
  apply solid_le_of_sublist
  apply (sublist_stripComments _).trans (Cartridge.isInfix_code t).sublist

theorem countText_le_solid (t : Text) :
  countText t ≤ solid t
  := by
  unfold countText
  split
  · apply Nat.zero_le
  · apply sum_count_codeLines_le

/-! ### Bytes -/

/-- A text has at most as many characters as bytes. -/
theorem Utf8.length_decode_le (b : Bytes) :
  (Utf8.decode b).length ≤ b.length
  := by
  fun_induction Utf8.decode b with
  | case1 => exact le_rfl
  | case2 b bs _ ih =>
    rw [List.length_cons, List.length_cons]
    omega
  | case3 b bs ranges _ tail c ih =>
    rw [List.length_drop] at ih
    rw [List.length_cons, List.length_cons]
    omega

theorem solid_decode_le (b : Bytes) :
  solid (Utf8.decode b) ≤ b.length
  := List.countP_le_length.trans (Utf8.length_decode_le b)

/-! ### Counters -/

/-- The sum of the numbers, added up one after another by a counter that holds numbers up to
`bound`; none if the counter overflows. -/
def sumWithin (bound : Nat) (ns : List Nat) : Option Nat :=
  ns.foldlM (fun total n => if total + n ≤ bound then some (total + n) else none) 0

/-- What a cartridge given as bytes costs, counted by counters that hold numbers up to
`bound`, one for each line and one for the cartridge. -/
def countWithin (bound : Nat) (b : Bytes) : Option Nat :=
  if Cartridge.isGraphicsOnly (Utf8.decode b) then some 0
  else do
    let counts ← (codeLines (Utf8.decode b)).mapM fun line =>
      sumWithin bound ((Line.tokens line).map Token.weight)
    sumWithin bound counts

/-- A counter that holds the sum does not overflow. -/
theorem sumWithin_eq_some {bound : Nat} {ns : List Nat} (h : ns.sum ≤ bound) :
  sumWithin bound ns = some ns.sum
  := by
  -- the counter may already hold a number
  suffices hrun : ∀ total, total + ns.sum ≤ bound →
      ns.foldlM (fun total n => if total + n ≤ bound then some (total + n) else none) total
        = some (total + ns.sum) by
    have hzero := hrun 0 (by rwa [Nat.zero_add])
    rwa [Nat.zero_add] at hzero
  clear h
  induction ns with
  | nil => exact fun _ _ => rfl
  | cons n ns ih =>
    intro total h
    rw [List.sum_cons] at h ⊢
    rw [List.foldlM_cons, if_pos (by omega), ← Nat.add_assoc]
    apply ih
    omega

theorem mapM_eq_some {α : Type} {f : α → Option Nat} {g : α → Nat} {xs : List α}
    (h : ∀ x ∈ xs, f x = some (g x)) :
  xs.mapM f = some (xs.map g)
  := by
  induction xs with
  | nil => rfl
  | cons x xs ih =>
    rw [List.forall_mem_cons] at h
    rw [List.mapM_cons, h.1, ih h.2]
    rfl

/-- Counters that hold the number of bytes do not overflow. -/
theorem countWithin_eq_some {bound : Nat} {b : Bytes} (h : b.length ≤ bound) :
  countWithin bound b = some (countBytes b)
  := by
  have htotal : ((codeLines (Utf8.decode b)).map Line.count).sum ≤ bound :=
    calc
      _ ≤ solid (Utf8.decode b) := sum_count_codeLines_le _
      _ ≤ b.length := solid_decode_le b
      _ ≤ bound := h
  have hlines : ∀ line ∈ codeLines (Utf8.decode b),
      sumWithin bound ((Line.tokens line).map Token.weight) = some (Line.count line) := by
    intro line hline
    apply sumWithin_eq_some
    apply le_trans _ htotal
    apply List.le_sum_of_mem
    apply List.mem_map_of_mem hline
  unfold countWithin countBytes countText
  split
  · rfl
  · rw [mapM_eq_some hlines]
    apply sumWithin_eq_some htotal

/-- The count is bounded by the characters that are not blank, and by the number of bytes, so
no counter that holds the number of bytes overflows. -/
theorem count_bounded :
  (∀ line : Text, Line.count line ≤ solid line)
    ∧ (∀ t : Text, countText t ≤ solid t)
    ∧ (∀ b : Bytes, countBytes b ≤ b.length)
    ∧ ∀ (b : Bytes) (bound : Nat), b.length ≤ bound → countWithin bound b = some (countBytes b)
  := by
  refine ⟨Line.count_le_solid, countText_le_solid, ?_, ?_⟩
  · intro b
    apply (countText_le_solid _).trans (solid_decode_le b)
  · intro b bound
    apply countWithin_eq_some

theorem count_bounded_ill_formed :
  ([0x78, 0x3d, 0xff] : Bytes).length ≤ 3 ∧ countBytes [0x78, 0x3d, 0xff] ≤ 3
    ∧ countWithin 3 [0x78, 0x3d, 0xff] = some (countBytes [0x78, 0x3d, 0xff])
  := ⟨by decide, count_bounded.2.2.1 _, count_bounded.2.2.2 _ 3 (by decide)⟩

end CartTokens
