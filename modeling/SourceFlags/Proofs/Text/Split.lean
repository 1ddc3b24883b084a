import SourceFlags.Text.Lines

namespace SourceFlags.Text

variable {p : Char → Bool} {sep c : Char} {cs ds piece l : Chars} {ls ms : List Chars}

theorem splitWhere_cons_of_pos (h : p c = true) (cs : Chars) :
    splitWhere p (c :: cs) = [] :: splitWhere p cs := by
  simp [splitWhere, h]

theorem splitWhere_cons_of_neg (h : p c = false) (cs : Chars) :
    ∃ l ls, splitWhere p cs = l :: ls ∧ splitWhere p (c :: cs) = (c :: l) :: ls := by
  cases hs : splitWhere p cs
  case nil       => exact absurd hs <| splitWhere_ne_nil cs
  case cons l ls =>
    refine ⟨l, ls, rfl, ?_⟩
    simp [splitWhere, h, hs]

theorem splitWhere_append_of_pos (h : p c = true) (cs ds : Chars) :
    splitWhere p (cs ++ c :: ds) = splitWhere p cs ++ splitWhere p ds := by
  induction cs
  case nil => exact splitWhere_cons_of_pos h ds
  case cons d cs hi =>
    cases hd : p d
    case true =>
      rw [List.cons_append, splitWhere_cons_of_pos hd, splitWhere_cons_of_pos hd, hi,
        List.cons_append]
    case false =>
      have ⟨l, ls, hl, hc⟩ := splitWhere_cons_of_neg hd cs
      have ⟨m, ms, hm, ha⟩ := splitWhere_cons_of_neg hd (cs ++ c :: ds)
      rw [hi, hl, List.cons_append, List.cons.injEq] at hm
      rw [List.cons_append, ha, hc, List.cons_append, hm.left, hm.right]

theorem splitWhere_of_neg (h : ∀ c ∈ cs, p c = false) : splitWhere p cs = [cs] := by
  induction cs
  case nil => rfl
  case cons c cs hi =>
    have ⟨hc, hcs⟩ := List.forall_mem_cons.mp h
    have ⟨l, ls, hl, he⟩ := splitWhere_cons_of_neg hc cs
    rw [hi hcs, List.cons.injEq] at hl
    rw [he, ← hl.left, ← hl.right]

theorem splitOn_cons_sep (sep : Char) (cs : Chars) :
    splitOn sep (sep :: cs) = [] :: splitOn sep cs :=
  splitWhere_cons_of_pos (p := (· == sep)) (beq_self_eq_true sep) cs

theorem splitOn_cons_of_ne (h : c ≠ sep) (cs : Chars) :
    ∃ l ls, splitOn sep cs = l :: ls ∧ splitOn sep (c :: cs) = (c :: l) :: ls :=
  splitWhere_cons_of_neg (p := (· == sep)) (beq_false_of_ne h) cs

theorem splitOn_append_sep (sep : Char) (cs ds : Chars) :
    splitOn sep (cs ++ sep :: ds) = splitOn sep cs ++ splitOn sep ds :=
  splitWhere_append_of_pos (p := (· == sep)) (beq_self_eq_true sep) cs ds

theorem splitOn_of_not_mem (h : sep ∉ cs) : splitOn sep cs = [cs] :=
  splitWhere_of_neg fun _ hm => beq_false_of_ne fun he => h (he ▸ hm)

theorem splitOn_append_of_not_mem (h : sep ∉ cs) (hd : splitOn sep ds = l :: ls) :
    splitOn sep (cs ++ ds) = (cs ++ l) :: ls := by
  induction cs
  case nil => exact hd
  case cons c cs hi =>
    have ⟨hc, hcs⟩ := List.ne_and_not_mem_of_not_mem_cons h
    have ⟨m, ms, hm, hs⟩ := splitOn_cons_of_ne (Ne.symm hc) (cs ++ ds)
    cases (hi hcs).symm.trans hm
    exact hs

theorem not_mem_of_mem_splitOn (h : piece ∈ splitOn sep cs) : sep ∉ piece := by
  induction cs generalizing piece
  case nil => simp_all [splitOn, splitWhere]
  case cons c cs hi =>
    by_cases hc : c = sep
    case pos =>
      subst hc
      rw [splitOn_cons_sep] at h
      cases h
      case head   => exact List.not_mem_nil
      case tail h => exact hi h
    case neg =>
      obtain ⟨l, ls, hl, he⟩ := splitOn_cons_of_ne hc cs
      rw [he] at h
      rw [hl] at hi
      cases h
      case head   => exact List.not_mem_cons_of_ne_of_not_mem (Ne.symm hc) (hi List.mem_cons_self)
      case tail h => exact hi <| List.mem_cons_of_mem _ h

theorem join_cons (sep l : Chars) (h : ls ≠ []) : join sep (l :: ls) = l ++ sep ++ join sep ls := by
  cases ls
  case nil  => contradiction
  case cons => rfl

theorem join_ne_nil (sep : Chars) (hn : ∀ l ∈ ls, l ≠ []) (h : ls ≠ []) : join sep ls ≠ [] := by
  cases ls
  case nil => contradiction
  case cons l ls =>
    have hl := hn l List.mem_cons_self
    cases ls
    case nil  => exact hl
    case cons => simp [join, hl]

theorem join_append (sep : Chars) (hl : ls ≠ []) (hm : ms ≠ []) :
    join sep (ls ++ ms) = join sep ls ++ sep ++ join sep ms := by
  induction ls
  case nil => contradiction
  case cons l ls hi =>
    by_cases h : ls = []
    case pos => simp [h, join_cons sep l hm, join]
    case neg =>
      have ha := List.append_ne_nil_of_left_ne_nil h ms
      simp [join_cons sep l h, join_cons sep l ha, hi h]

theorem splitOn_join (h : ∀ l ∈ ls, sep ∉ l) (hn : ls ≠ []) : splitOn sep (join [sep] ls) = ls := by
  induction ls
  case nil => contradiction
  case cons l ls hi =>
    have ⟨hl, hls⟩ := List.forall_mem_cons.mp h
    by_cases he : ls = []
    case pos => simp [he, join, splitOn_of_not_mem hl]
    case neg =>
      rw [join_cons _ l he, List.append_assoc, List.singleton_append, splitOn_append_sep,
        splitOn_of_not_mem hl, hi hls he, List.singleton_append]

theorem splitOn_join_concat (h : ∀ l ∈ ls, sep ∉ l) (cs : Chars) :
    splitOn sep (join [sep] (ls ++ [cs])) = ls ++ splitOn sep cs := by
  induction ls
  case nil => rfl
  case cons l ls hi =>
    have ⟨hl, hls⟩ := List.forall_mem_cons.mp h
    rw [List.cons_append, join_cons _ l (List.concat_ne_nil cs ls), List.append_assoc,
      List.singleton_append, splitOn_append_sep, splitOn_of_not_mem hl, hi hls]
    rfl

theorem lines_cons_of_unbroken (h : isLineBreak c = false) (cs : Chars) :
    lines (c :: cs) = match lines cs with
      | []      => [[c]]
      | l :: ls => (c :: l) :: ls := by
  rw [lines.eq_3]
  case x_1 =>
    rintro ds rfl
    contradiction
  exact if_neg (Bool.eq_false_iff.mp h)

theorem lines_append_newline (h : ∀ c ∈ piece, isLineBreak c = false) (cs : Chars) :
    lines (piece ++ '\n' :: cs) = piece :: lines cs := by
  induction piece
  case nil => simp [lines, isLineBreak, Ranges.contains, breakRanges]
  case cons c piece hi =>
    obtain ⟨hc, hp⟩ := List.forall_mem_cons.mp h
    rw [List.cons_append, lines_cons_of_unbroken hc, hi hp]

theorem lines_of_unbroken (h : ∀ c ∈ piece, isLineBreak c = false) (hn : piece ≠ []) :
    lines piece = [piece] := by
  induction piece
  case nil => exact absurd rfl hn
  case cons c piece hi =>
    obtain ⟨hc, hp⟩ := List.forall_mem_cons.mp h
    rw [lines_cons_of_unbroken hc]
    by_cases he : piece = []
    case pos => rw [he, lines]
    case neg => rw [hi hp he]

-- An empty last line, which is none to `lines`, makes no difference to what takes nothing from it.
theorem filterMap_lines_join {α : Type} {f : Chars → Option α} (hf : f [] = none)
    (h : ∀ l ∈ ls, ∀ c ∈ l, isLineBreak c = false) :
    (lines (join ['\n'] ls)).filterMap f = ls.filterMap f := by
  induction ls
  case nil => rfl
  case cons l ls hi =>
    have ⟨hl, hls⟩ := List.forall_mem_cons.mp h
    by_cases hn : ls = []
    case pos =>
      rw [hn, join]
      by_cases he : l = []
      case pos => simp [he, lines, hf]
      case neg => rw [lines_of_unbroken hl he]
    case neg =>
      rw [join_cons _ l hn, List.append_assoc, List.singleton_append, lines_append_newline hl,
        List.filterMap_cons, List.filterMap_cons, hi hls]

end SourceFlags.Text
