import CartTokens.Proofs.Rescan
import CartTokens.Proofs.Settled

/-!
# Runs of dots

A run of dots is cut into chunks, the first of at most four dots and the others of at most three,
and no two of them come together again.  A single dot at the end of a run is free, every other
chunk costs one token, so a line of dots costs a third of their number, rounded down; only two dots
alone, which are an operator, cost more (`Line.dots_chunked_and_counted`).
-/

namespace CartTokens

namespace Lexeme

/-! ### The sizes of chunks -/

/-- The sizes of the chunks of a run of `n` dots: first four, or all dots if there are fewer, then
three each, except that the last may be smaller. -/
structure ChunkSizes (n : Nat) (sizes : List Nat) : Prop where
  sum_eq : sizes.sum = n
  head?_eq : sizes.head? = some (min n 4)
  tail_eq : ∃ full last, sizes.tail = List.replicate full 3 ++ last ∧ last ∈ [[], [1], [2]]

theorem exists_threes_eq (n : Nat) :
  ∃ full last, threes n = List.replicate full 3 ++ last ∧ last ∈ [[], [1], [2]]
  := by
  fun_induction threes n with
  | case1 => use 0, [], rfl, by decide
  | case2 => use 0, [1], rfl, by decide
  | case3 => use 0, [2], rfl, by decide
  | case4 n ih =>
    obtain ⟨full, last, heq, hlast⟩ := ih
    use full + 1, last
    rw [heq, List.replicate_succ, List.cons_append]
    use rfl, hlast

theorem chunkSizes_dotChunks (n : Nat) :
  ChunkSizes n (dotChunks n)
  := by
  constructor
  case sum_eq => apply sum_dotChunks
  case head?_eq =>
    unfold dotChunks
    split
    · rename_i hn
      rw [List.head?_cons, Nat.min_eq_left hn]
    · rename_i hn
      rw [List.head?_cons, Nat.min_eq_right (by omega)]
  case tail_eq =>
    unfold dotChunks
    split
    · use 0, [], rfl, by decide
    · apply exists_threes_eq

/-- Of the chunks of a run all but a single dot at the end have two dots or more. -/
theorem countP_threes (n : Nat) :
  (threes n).countP (2 ≤ ·) = (n + 1) / 3
  := by
  fun_induction threes n with
  | case1 => rfl
  | case2 => rfl
  | case3 => rfl
  | case4 n ih =>
    rw [List.countP_cons, ih, if_pos (by decide)]
    omega

theorem countP_dotChunks (n : Nat) :
  (dotChunks n).countP (2 ≤ ·) = if n = 2 then 1 else n / 3
  := by
  unfold dotChunks
  split
  · have hsmall : ∀ k < 5, [k].countP (2 ≤ ·) = if k = 2 then 1 else k / 3 := by decide
    apply hsmall n (by omega)
  · rename_i hn
    rw [List.countP_cons, countP_threes, if_pos (by decide), if_neg (by omega)]
    omega

/-! ### Scanning -/

theorem scan_nil :
  scan [] = []
  := by
  rw [scan, cut, List.flatMap_nil]

/-- A run of dots is scanned apart from what follows it. -/
theorem scan_dots_append {n : Nat} (hn : 1 ≤ n) {rest : Text} (h : StopsAt (· == '.') rest) :
  scan (List.replicate n '.' ++ rest) = (dots n).raws ++ scan rest
  := by
  obtain ⟨n, rfl⟩ := Nat.exists_eq_add_of_le' hn
  have hcut : cut ((dots (n + 1)).text ++ rest) = dots (n + 1) :: cut rest :=
    Maximal.cut_append (.dots h)
  rw [text] at hcut
  rw [scan, hcut, List.flatMap_cons, scan]

theorem raws_dots {n : Nat} (hn : 2 ≤ n) :
  (dots n).raws = (dotChunks n).map chunk
  := by
  rw [raws, if_neg (by omega)]
  rfl

end Lexeme

/-! ### Merging -/

/-- Chunks of dots come together with nothing. -/
theorem Fusion.eq_zero_of_dots {prev : Option Text} {a : Text} {ts : List Text} {n : Nat}
    (h : Fusion prev a ts n) (hchain : (a :: ts).IsChain DotAfterDots)
    (hne : ∀ t ∈ a :: ts, t ≠ []) (hdots : ∀ t ∈ a :: ts, ∀ c ∈ t, c = '.') :
  n = 0
  := by
  have hlength := h.le_length
  have hgrouped := h.grouped hchain hne
  generalize hgroup : a :: ts.take n = group at hgrouped
  have hmem : ∀ t ∈ group, ∀ c ∈ t, c = '.' := by
    rw [← hgroup, List.forall_mem_cons]
    rw [List.forall_mem_cons] at hdots
    exact ⟨hdots.1, fun t ht => hdots.2 t (List.mem_of_mem_take ht)⟩
  cases hgrouped with
  | alone t =>
    have htake := congrArg List.length (List.cons.inj hgroup).2
    rw [List.length_take, List.length_nil] at htake
    omega
  | signed _ _ => exact absurd (hmem ['-'] (by simp) '-' (by simp)) (by decide)
  | compound _ => exact absurd (hmem ['='] (by simp) '=' (by simp)) (by decide)

theorem settled_of_dots {ts : List Text} (hchain : ts.IsChain DotAfterDots)
    (hne : ∀ t ∈ ts, t ≠ []) (hdots : ∀ t ∈ ts, ∀ c ∈ t, c = '.') :
  Settled ts
  := by
  rintro before m after n rfl hfusion
  apply hfusion.eq_zero_of_dots (List.isChain_append.mp hchain).2.1
  · exact fun t ht => hne t (List.mem_append_right before ht)
  · exact fun t ht => hdots t (List.mem_append_right before ht)

namespace Line

/-! ### Lines of dots -/

/-- Dots are no glyphs. -/
theorem collapse_dots (n : Nat) :
  collapse (Lexeme.dots n).raws = (Lexeme.dots n).raws
  := by
  obtain hn | hn : n ≤ 1 ∨ 2 ≤ n := by omega
  · rw [Lexeme.raws, if_pos hn]
    rfl
  · obtain ⟨k, ks, hk, hks⟩ := Lexeme.exists_dotChunks_eq_cons hn
    have hdot : '.' ∈ (Lexeme.chunk k).text := List.mem_replicate.mpr ⟨by omega, rfl⟩
    rw [Lexeme.raws_dots hn, hks]
    apply collapse_of_mem List.mem_cons_self
    rw [isGlyphRun_iff]
    intro hglyphs
    exact absurd (hglyphs.2 '.' hdot) (by decide)

/-- The raw tokens of a line of dots are the chunks of the run. -/
theorem raws_dots (n : Nat) :
  raws (List.replicate n '.') = (Lexeme.dots n).raws
  := by
  obtain rfl | hn := Nat.eq_zero_or_pos n
  · rfl
  have hcode : IsCode (List.replicate n '.') := by
    apply isCode_of_forall
    · rw [Ne, List.replicate_eq_nil_iff]
      omega
    · intro c hc
      rw [List.eq_of_mem_replicate hc]
      decide
  have hscan := Lexeme.scan_dots_append hn (Lexeme.stopsAt_nil _)
  rw [List.append_nil, Lexeme.scan_nil, List.append_nil] at hscan
  rw [hcode.raws_eq, hscan, collapse_dots]

theorem merged_dots {n : Nat} (hn : 2 ≤ n) :
  merged (List.replicate n '.') = (Lexeme.dotChunks n).map fun k => List.replicate k '.'
  := by
  have htexts : (raws (List.replicate n '.')).map Raw.text
      = (Lexeme.dotChunks n).map fun k => List.replicate k '.' := by
    rw [raws_dots, Lexeme.raws_dots hn, List.map_map]
    rfl
  have hsettled : Settled ((raws (List.replicate n '.')).map Raw.text) := by
    apply settled_of_dots (isChain_raws _).of_cons
    · exact fun t => ne_nil_of_mem_texts
    · rw [htexts]
      intro t ht c hc
      obtain ⟨k, -, rfl⟩ := List.mem_map.mp ht
      exact List.eq_of_mem_replicate hc
  rw [merged, hsettled.merge_eq, htexts]

/-- A chunk of one dot is a separator; the others count. -/
theorem weight_chunk :
  ∀ k < 5, 1 ≤ k → (!structural.contains (List.replicate k '.')) = decide (2 ≤ k)
    ∧ (2 ≤ k → (Token.ofText (List.replicate k '.')).weight = 1)
  := by
  decide

/-- A line of dots costs the chunks that are more than a single dot. -/
theorem count_dots {n : Nat} (hn : 2 ≤ n) :
  count (List.replicate n '.') = (Lexeme.dotChunks n).countP (2 ≤ ·)
  := by
  have hchunk : ∀ k ∈ Lexeme.dotChunks n, k < 5 ∧ 1 ≤ k := by
    intro k hk
    obtain ⟨hpos, hle⟩ := Lexeme.mem_dotChunks hn hk
    omega
  have hfree : ∀ k ∈ Lexeme.dotChunks n,
      (!structural.contains (List.replicate k '.')) = decide (2 ≤ k) :=
    fun k hk => (weight_chunk k (hchunk k hk).1 (hchunk k hk).2).1
  have hweight : ∀ k ∈ (Lexeme.dotChunks n).filter (2 ≤ ·),
      (Token.ofText (List.replicate k '.')).weight = 1 := by
    intro k hk
    obtain ⟨hk, hlong⟩ := List.mem_filter.mp hk
    apply (weight_chunk k (hchunk k hk).1 (hchunk k hk).2).2 (of_decide_eq_true hlong)
  rw [count, tokens, merged_dots hn, List.filter_map, Function.comp_def, List.filter_congr hfree,
    List.map_map, List.map_map, Function.comp_def, Function.comp_def, List.map_congr_left hweight,
    List.map_const', List.sum_replicate_nat, Nat.mul_one, List.countP_eq_length_filter]

/-- A run of two or more dots is scanned into chunks whose sizes add up to their number: first four
dots, or all if there are fewer, then three each, except that the last chunk may be smaller.  A line
of dots costs a third of their number, rounded down, and a line of two dots costs one token. -/
theorem dots_chunked_and_counted (n : Nat) :
  (2 ≤ n → ∃ sizes, Lexeme.ChunkSizes n sizes
      ∧ raws (List.replicate n '.') = sizes.map Lexeme.chunk
      ∧ ∀ rest : Text, rest.head? ≠ some '.' →
        scan (List.replicate n '.' ++ rest) = sizes.map Lexeme.chunk ++ scan rest)
    ∧ count (List.replicate n '.') = if n = 2 then 1 else n / 3
  := by
  constructor
  · intro hn
    use Lexeme.dotChunks n, Lexeme.chunkSizes_dotChunks n
    rw [← Lexeme.raws_dots hn]
    use raws_dots n
    intro rest hrest
    apply Lexeme.scan_dots_append (by omega)
    intro c hc hdot
    rw [beq_iff_eq.mp hdot] at hc
    exact hrest hc
  · obtain hn | hn : n < 2 ∨ 2 ≤ n := by omega
    · have hsmall : ∀ k < 2, count (List.replicate k '.') = if k = 2 then 1 else k / 3 := by
        decide +kernel
      apply hsmall n hn
    · rw [count_dots hn, Lexeme.countP_dotChunks]

/-- Nine dots before a name. -/
theorem dots_chunked_and_counted_nine :
  (∃ sizes, Lexeme.ChunkSizes 9 sizes
      ∧ scan (List.replicate 9 '.' ++ "x".toList) = sizes.map Lexeme.chunk ++ scan "x".toList)
    ∧ count (List.replicate 9 '.') = 3
  := by
  obtain ⟨hchunks, hcount⟩ := dots_chunked_and_counted 9
  obtain ⟨sizes, hsizes, -, hscan⟩ := hchunks (by decide)
  exact ⟨⟨sizes, hsizes, hscan "x".toList (by decide)⟩, hcount⟩

end Line

end CartTokens
