import RecipeScript.Proofs.Blanks
import RecipeScript.Text.Lines

/-!
# The place of a line

A text is cut into lines from left to right, and the number of a line is its place in the list. Here
the lines are found without cutting: line `n` begins at the start of the text or right after a line
feed, `n - 1` line feeds come before it, and it goes on to the next line feed or to the end of the
text. `getElem?_linesOf_iff` says that these are the same lines.

Every text either has no line feed or is a first line, a line feed and a shorter text
(`feedInduction`), and cutting follows that shape (`all_cut_of_not_mem`, `all_cut_append_feed`).
-/

namespace RecipeScript

namespace Lines

variable {α : Type} {lf cr : α}

/-- `Heads lf cr line rest`: what is left of a text begins with this line, its end apart. -/
inductive Heads (lf cr : α) (line : List α) : List α → Prop where
  /-- The line ends at a line feed. -/
  | feed (more : List α) : lf ∉ line → line.getLast? ≠ some cr → Heads lf cr line (line ++ lf :: more)
  /-- The line ends at a line feed with a carriage return in front of it. -/
  | returnFeed (more : List α) : lf ∉ line → Heads lf cr line (line ++ cr :: lf :: more)
  /-- The line ends with the text. -/
  | unfinished : lf ∉ line → line ≠ [] → Heads lf cr line line

/-- A text up to a place where a line can begin. -/
def EndsLine (lf : α) (before : List α) : Prop :=
  before = [] ∨ before.getLast? = some lf

theorem eq_nil_of_endsLine {before rest : List α} (hends : EndsLine lf before)
    (h : lf ∉ before ++ rest) : before = [] := by
  rcases hends with hnil | hlast
  · exact hnil
  · exact absurd (List.mem_append_left rest (List.mem_of_getLast? hlast)) h

theorem endsLine_append {piece before : List α} (h : EndsLine lf before) :
    EndsLine lf (piece ++ lf :: before) := by
  right
  rw [List.getLast?_append_of_ne_nil _ (by simp)]
  rcases h with rfl | hlast
  · rfl
  · cases before with
    | nil => cases hlast
    | cons c before => rw [List.getLast?_cons_cons, hlast]

theorem endsLine_of_append_feed {piece cs : List α} (h : EndsLine lf (piece ++ lf :: cs)) : EndsLine lf cs := by
  cases cs with
  | nil => exact Or.inl rfl
  | cons c cs =>
      have hlast := h.resolve_left (by simp)
      rw [List.getLast?_append_of_ne_nil _ (by simp), List.getLast?_cons_cons] at hlast
      exact Or.inr hlast

/-! ## Cutting -/

theorem all_of_unfinished_eq_nil {lines : Lines α} (h : lines.unfinished = []) : lines.all = lines.finished := by
  unfold all
  rw [h]
  rfl

variable [DecidableEq α]

theorem feedInduction (lf : α) {motive : List α → Prop} (last : ∀ cs, lf ∉ cs → motive cs)
    (more : ∀ piece cs, lf ∉ piece → motive cs → motive (piece ++ lf :: cs)) (cs : List α) :
    motive cs := by
  induction hlength : cs.length using Nat.strong_induction_on generalizing cs with
  | _ n ih =>
      by_cases hmem : lf ∈ cs
      · obtain ⟨piece, rest, rfl, hpiece⟩ := List.eq_append_cons_of_mem hmem
        refine more piece rest hpiece (ih rest.length ?_ rest rfl)
        rw [← hlength, List.length_append, List.length_cons]
        omega
      · exact last cs hmem

theorem not_sep_of_not_mem {cs : List α} (h : lf ∉ cs) : ∀ c ∈ cs, (c == lf) = false := by
  intro c hc
  rw [beq_eq_false_iff_ne]
  rintro rfl
  exact h hc

theorem splitOn_of_not_mem {cs : List α} (h : lf ∉ cs) : splitOn (· == lf) cs = [cs] :=
  splitOn_eq_singleton (not_sep_of_not_mem h)

theorem splitOn_append_feed {piece : List α} (cs : List α) (h : lf ∉ piece) :
    splitOn (· == lf) (piece ++ lf :: cs) = piece :: splitOn (· == lf) cs := by
  rw [splitOn_append_sep (p := (· == lf)) piece cs (beq_self_eq_true lf), splitOn_of_not_mem h,
    List.singleton_append]

theorem cut_of_not_mem {cs : List α} (h : lf ∉ cs) : cut lf cr cs = ⟨[], cs⟩ := by
  unfold cut
  rw [splitOn_of_not_mem h]
  rfl

theorem cut_append_feed {piece : List α} (cs : List α) (h : lf ∉ piece) :
    cut lf cr (piece ++ lf :: cs) =
      ⟨dropReturn cr piece :: (cut lf cr cs).finished, (cut lf cr cs).unfinished⟩ := by
  obtain ⟨first, pieces, hsplit⟩ := exists_splitOn_eq_cons (· == lf) cs
  unfold cut
  rw [splitOn_append_feed cs h, hsplit]
  rfl

theorem all_cut_of_not_mem {cs : List α} (h : lf ∉ cs) :
    (cut lf cr cs).all = if cs = [] then [] else [cs] := by
  rw [cut_of_not_mem h]
  cases cs with
  | nil => rfl
  | cons c cs => rfl

theorem all_cut_append_feed {piece : List α} (cs : List α) (h : lf ∉ piece) :
    (cut lf cr (piece ++ lf :: cs)).all = dropReturn cr piece :: (cut lf cr cs).all := by
  rw [cut_append_feed cs h]
  unfold all
  dsimp only
  split
  · rfl
  · rfl

/-! ## Cutting at a line end -/

/-- **Where a line ends, a text can be taken apart.** Each part is cut as if it stood alone. -/
theorem cut_append {front : List α} (back : List α) (h : EndsLine lf front) : cut lf cr (front ++ back) =
    ⟨(cut lf cr front).finished ++ (cut lf cr back).finished, (cut lf cr back).unfinished⟩ := by
  induction front using feedInduction lf with
  | last front hfront =>
      obtain rfl := eq_nil_of_endsLine h (List.append_nil front ▸ hfront)
      rfl
  | more piece front hpiece ih =>
      rw [List.append_assoc, List.cons_append, cut_append_feed _ hpiece, cut_append_feed _ hpiece,
        ih (endsLine_of_append_feed h), List.cons_append]

/-- Up to a line end no line is unfinished. -/
theorem unfinished_cut {front : List α} (h : EndsLine lf front) : (cut lf cr front).unfinished = [] := by
  have hcut : cut lf cr (front ++ []) = _ := cut_append [] h
  rw [List.append_nil] at hcut
  rw [hcut]
  rfl

theorem all_cut_append {front : List α} (back : List α) (h : EndsLine lf front) :
    (cut lf cr (front ++ back)).all = (cut lf cr front).all ++ (cut lf cr back).all := by
  rw [cut_append back h, all_of_unfinished_eq_nil (unfinished_cut h)]
  unfold all
  dsimp only
  split
  · rfl
  · rw [List.append_assoc]

/-- Up to a line end there are as many lines as line feeds. -/
theorem length_all_cut {front : List α} (h : EndsLine lf front) :
    (cut lf cr front).all.length = front.count lf := by
  induction front using feedInduction lf with
  | last front hfront =>
      obtain rfl := eq_nil_of_endsLine h (List.append_nil front ▸ hfront)
      rw [all_cut_of_not_mem hfront, if_pos rfl]
      rfl
  | more piece front hpiece ih =>
      rw [all_cut_append_feed _ hpiece, List.length_cons, ih (endsLine_of_append_feed h), List.count_append,
        List.count_eq_zero.mpr hpiece, List.count_cons_self, Nat.zero_add]

/-! ## Finding -/

/-- A line feed that comes after no other is in one place only. -/
theorem append_feed_inj {piece line cs more : List α} (hpiece : lf ∉ piece) (hline : lf ∉ line)
    (h : piece ++ lf :: cs = line ++ lf :: more) : piece = line ∧ cs = more := by
  have hsplit := congrArg (List.takeWhile (· != lf)) h
  have hall : ∀ {ds : List α}, lf ∉ ds → ∀ d ∈ ds, (d != lf) = true := by
    intro ds hds d hd
    rw [bne_iff_ne]
    rintro rfl
    exact hds hd
  rw [List.takeWhile_append_of_pos (hall hpiece), List.takeWhile_append_of_pos (hall hline),
    List.takeWhile_cons_of_neg (by simp), List.takeWhile_cons_of_neg (by simp), List.append_nil,
    List.append_nil] at hsplit
  subst hsplit
  exact ⟨rfl, (List.cons.inj (List.append_cancel_left h)).2⟩

theorem heads_dropReturn {piece : List α} (cs : List α) (h : lf ∉ piece) :
    Heads lf cr (dropReturn cr piece) (piece ++ lf :: cs) := by
  unfold dropReturn
  split
  · rename_i hreturn
    obtain ⟨front, rfl⟩ := List.getLast?_eq_some_iff.mp hreturn
    rw [List.dropLast_concat, List.append_assoc]
    exact .returnFeed cs fun hmem => h (List.mem_append_left _ hmem)
  · rename_i hreturn
    exact .feed cs h hreturn

theorem eq_dropReturn_of_heads {piece line cs : List α} (hcr : cr ≠ lf) (h : lf ∉ piece)
    (hheads : Heads lf cr line (piece ++ lf :: cs)) : line = dropReturn cr piece := by
  generalize htext : piece ++ lf :: cs = text at hheads
  unfold dropReturn
  cases hheads with
  | feed more hline hreturn =>
      obtain ⟨rfl, -⟩ := append_feed_inj h hline htext
      rw [if_neg hreturn]
  | returnFeed more hline =>
      have hline' : lf ∉ line ++ [cr] := by
        rw [List.mem_append, List.mem_singleton, not_or]
        exact ⟨hline, fun h => hcr h.symm⟩
      rw [List.append_cons line cr] at htext
      obtain ⟨rfl, -⟩ := append_feed_inj h hline' htext
      rw [if_pos (by rw [List.getLast?_concat]), List.dropLast_concat]
  | unfinished hline =>
      exact absurd (by rw [← htext]; simp) hline

/-- Past the first line, a place where a line can begin is one in what follows the line. -/
theorem exists_of_endsLine {piece cs before rest : List α} (hends : EndsLine lf before)
    (hbefore : before ≠ []) (hpiece : lf ∉ piece) (h : piece ++ lf :: cs = before ++ rest) :
    ∃ before', before = piece ++ lf :: before' ∧ cs = before' ++ rest ∧ EndsLine lf before' := by
  have hlast : before.getLast? = some lf := hends.resolve_left hbefore
  obtain ⟨line, before', rfl, hline⟩ := List.eq_append_cons_of_mem (List.mem_of_getLast? hlast)
  rw [List.append_assoc, List.cons_append] at h
  obtain ⟨rfl, rfl⟩ := append_feed_inj hpiece hline h
  refine ⟨before', rfl, rfl, ?_⟩
  cases before' with
  | nil => exact Or.inl rfl
  | cons c before' =>
      right
      rw [← hlast, List.getLast?_append_of_ne_nil _ (by simp), List.getLast?_cons_cons]

/-- **The lines of a text, found by the line feeds in front of them.** -/
theorem getElem?_all_cut_iff (hcr : cr ≠ lf) {cs line : List α} {k : Nat} :
    (cut lf cr cs).all[k]? = some line ↔ ∃ before rest, cs = before ++ rest ∧ EndsLine lf before ∧
      before.count lf = k ∧ Heads lf cr line rest := by
  induction cs using feedInduction lf generalizing k with
  | last cs hcs =>
      rw [all_cut_of_not_mem hcs]
      constructor
      · intro h
        split at h
        · cases h
        · rename_i hnil
          -- without a line feed there is one line at most
          cases k with
          | succ k => cases h
          | zero =>
              obtain rfl := Option.some.inj h
              exact ⟨[], cs, rfl, Or.inl rfl, rfl, .unfinished hcs hnil⟩
      · rintro ⟨before, rest, rfl, hends, rfl, hheads⟩
        obtain rfl := eq_nil_of_endsLine hends hcs
        rw [List.nil_append] at hcs ⊢
        cases hheads with
        | feed more _ _ => exact absurd (by simp) hcs
        | returnFeed more _ => exact absurd (by simp) hcs
        | unfinished _ hnil => rw [if_neg hnil]; rfl
  | more piece cs hpiece ih =>
      rw [all_cut_append_feed cs hpiece]
      constructor
      · intro h
        cases k with
        | zero =>
            obtain rfl := Option.some.inj h
            exact ⟨[], _, rfl, Or.inl rfl, rfl, heads_dropReturn cs hpiece⟩
        | succ k =>
            obtain ⟨before, rest, rfl, hends, hcount, hheads⟩ := ih.mp h
            refine ⟨piece ++ lf :: before, rest, by simp, endsLine_append hends, ?_, hheads⟩
            rw [List.count_append, List.count_eq_zero.mpr hpiece, List.count_cons_self, hcount, Nat.zero_add]
      · rintro ⟨before, rest, htext, hends, rfl, hheads⟩
        by_cases hbefore : before = []
        · subst hbefore
          rw [List.nil_append] at htext
          rw [← htext] at hheads
          rw [eq_dropReturn_of_heads hcr hpiece hheads]
          rfl
        · obtain ⟨before', rfl, rfl, hends'⟩ := exists_of_endsLine hends hbefore hpiece htext
          rw [List.count_append, List.count_eq_zero.mpr hpiece, List.count_cons_self, Nat.zero_add]
          exact ih.mpr ⟨before', rest, rfl, hends', rfl, hheads⟩

end Lines

/-- Line `n` of a text: it begins at the start of the text or after a line feed, and `n` is one more
than the number of line feeds before it. -/
def IsLine (text : String) (n : Nat) (line : String) : Prop :=
  ∃ before rest : List Char, text.toList = before ++ rest ∧ Lines.EndsLine '\n' before ∧
    n = 1 + before.count '\n' ∧ Lines.Heads '\n' '\r' line.toList rest

/-- **The lines of a text are counted by their line feeds.** -/
theorem getElem?_linesOf_iff {text line : String} {k : Nat} :
    (linesOf text)[k]? = some line ↔ IsLine text (k + 1) line := by
  have hlines : (linesOf text)[k]? = some line ↔
      (Lines.cut '\n' '\r' text.toList).all[k]? = some line.toList := by
    unfold linesOf
    rw [List.getElem?_map, Option.map_eq_some_iff]
    constructor
    · rintro ⟨cs, hcs, rfl⟩
      rw [hcs, String.toList_ofList]
    · intro h
      exact ⟨line.toList, h, String.ofList_toList⟩
  rw [hlines, Lines.getElem?_all_cut_iff (by decide)]
  constructor
  · rintro ⟨before, rest, htext, hends, hcount, hheads⟩
    exact ⟨before, rest, htext, hends, by omega, hheads⟩
  · rintro ⟨before, rest, htext, hends, hcount, hheads⟩
    exact ⟨before, rest, htext, hends, by omega, hheads⟩

theorem linesOf_append {front : String} (back : String) (h : Lines.EndsLine '\n' front.toList) :
    linesOf (front ++ back) = linesOf front ++ linesOf back := by
  unfold linesOf
  rw [String.toList_append, Lines.all_cut_append _ h, List.map_append]

theorem length_linesOf {front : String} (h : Lines.EndsLine '\n' front.toList) :
    (linesOf front).length = front.toList.count '\n' := by
  unfold linesOf
  rw [List.length_map, Lines.length_all_cut h]

/-- A number has one line at most. -/
theorem IsLine.exists_getElem? {text line : String} {n : Nat} (h : IsLine text n line) :
    ∃ k, n = k + 1 ∧ (linesOf text)[k]? = some line := by
  obtain ⟨before, rest, htext, hends, rfl, hheads⟩ := h
  refine ⟨before.count '\n', by omega, getElem?_linesOf_iff.mpr ?_⟩
  exact ⟨before, rest, htext, hends, by omega, hheads⟩

end RecipeScript
