import SourceFlags.Proofs.Path.Within

namespace SourceFlags

open Text

namespace Text

variable {sep : Char} {ls ms : List Chars}

theorem join_concat_append (hl : ls ≠ []) (sep l : Chars) :
    join sep (ls ++ [l]) = join sep ls ++ sep ++ l := by
  rw [join_append sep hl (List.cons_ne_nil l []), join]

theorem join_concat_isPrefix (sep : Chars) (ls : List Chars) (l cs : Chars) (ms : List Chars) :
    join sep (ls ++ [l]) <+: join sep (ls ++ (l ++ cs) :: ms) := by
  have hl : l <+: join sep ((l ++ cs) :: ms) := by
    by_cases hm : ms = []
    case pos => simp [hm, join]
    case neg => simp [join_cons sep _ hm, List.append_assoc]
  by_cases hn : ls = []
  case pos => simpa [hn, join] using hl
  case neg =>
    rw [join_concat_append hn, join_append sep hn (List.cons_ne_nil _ ms)]
    exact (List.prefix_append_right_inj _).mpr hl

theorem cons_join_suffix (sep : Char) (ls : List Chars) (hm : ms ≠ []) :
    sep :: join [sep] ms <:+ sep :: join [sep] (ls ++ ms) := by
  by_cases hl : ls = []
  case pos => simp [hl]
  case neg => exact ⟨sep :: join [sep] ls, by simp [join_append _ hl hm]⟩

end Text

namespace Path

variable {p s : Path} {a : Part} {as : List Part} {cs : Chars}

theorem names_append (h : IsPart a) (cs : Chars) : names (a ++ cs) = true := by
  have hn : a ≠ [] := h.ne_nil
  have hd : a ≠ here := by simpa [names, hn] using h.names
  have hc : a ++ cs ≠ here := by
    simp only [here, ne_eq, List.append_eq_singleton_iff, not_or, not_and]
    exact ⟨fun h => absurd h hn, fun h => absurd h hd⟩
  simp [names, hn, hc]

theorem splitOn_join_append {l : Chars} {ls : List Chars} (has : ∀ b ∈ as, IsPart b) (ha : IsPart a)
    (h : splitOn '/' cs = l :: ls) :
    splitOn '/' (join ['/'] (as ++ [a]) ++ cs) = as ++ (a ++ l) :: ls := by
  have hs := splitOn_append_of_not_mem ha.no_slash h
  by_cases hn : as = []
  case pos => simpa [hn, join] using hs
  case neg =>
    rw [join_concat_append hn, List.append_assoc, List.append_assoc, List.singleton_append,
      splitOn_append_sep, splitOn_join (fun b hb => (has b hb).no_slash) hn, hs]

theorem Settled.filter_directory (hp : p.Settled) :
    (splitOn '/' (joinText p.text "").toList).filter names = p.parts := by
  rw [hp.joinText_empty]
  split
  case isTrue  => exact hp.parts_eq_filter
  case isFalse =>
    rw [splitOn_append_sep, List.filter_append, hp.parts_eq_filter]
    exact List.append_nil _

theorem dropLast_concat_name (h : s.parts ≠ []) : s.parts.dropLast ++ [s.name] = s.parts := by
  rw [name, List.getLast?_eq_some_getLast h, Option.getD_some, List.dropLast_append_getLast h]

theorem Settled.chars_eq_join (hs : s.Settled) (hl : s.lead = 1) (hn : s.parts ≠ []) :
    s.chars = '/' :: join ['/'] (s.parts.dropLast ++ [s.name]) := by
  rw [hs.chars_eq, hl, dropLast_concat_name hn]
  rfl

-- Where the text of a path begins there is a slash, so what is cut there begins with its parts.
theorem Settled.parts_of_occurs (hs : s.Settled) (hl : s.lead = 1) (hn : s.parts ≠ [])
    (hp : p.Settled) (h : s.chars <:+: (joinText p.text "").toList) :
    ∃ before name after,
      p.parts = before ++ s.parts.dropLast ++ name :: after ∧ s.name <+: name := by
  obtain ⟨b, c, h⟩ := h
  have hall : ∀ part ∈ s.parts.dropLast ++ [s.name], IsPart part := by
    rw [dropLast_concat_name hn]
    exact hs.parts
  have ⟨has, ha⟩ := List.forall_mem_append.mp hall
  have ha := ha s.name List.mem_cons_self
  cases hc : splitOn '/' c
  case nil       => exact absurd hc <| splitWhere_ne_nil c
  case cons l ls =>
    have hd := hp.filter_directory
    rw [← h, hs.chars_eq_join hl hn, List.append_assoc, List.cons_append, splitOn_append_sep,
      splitOn_join_append has ha hc, List.filter_append, List.filter_append,
      List.filter_eq_self.mpr fun part hm => (has part hm).names,
      List.filter_cons_of_pos (names_append ha l), ← List.append_assoc] at hd
    exact ⟨_, s.name ++ l, _, hd.symm, List.prefix_append ..⟩

theorem Settled.occurs_of_parts {before after : List Part} (hs : s.Settled) (hl : s.lead = 1)
    (hn : s.parts ≠ []) (hp : p.Settled)
    (h : p.parts = before ++ s.parts.dropLast ++ (s.name ++ cs) :: after) :
    s.chars <:+: (joinText p.text "").toList := by
  have hne : p.parts ≠ [] := by simp [h]
  have ⟨n, hlead⟩ := Nat.exists_eq_succ_of_ne_zero hp.rooted
  have hd : (joinText p.text "").toList = List.replicate n '/' ++ '/' :: join ['/']
      (before ++ (s.parts.dropLast ++ (s.name ++ cs) :: after)) ++ ['/'] := by
    rw [hp.joinText_empty, if_neg hne, hp.chars_eq, hlead, List.replicate_succ', h]
    simp
  have hstart : s.chars <+: '/' :: join ['/'] (s.parts.dropLast ++ (s.name ++ cs) :: after) :=
    hs.chars_eq_join hl hn ▸ (List.prefix_cons_inj _).mpr (join_concat_isPrefix ..)
  have hrest := cons_join_suffix '/' before
    (List.append_ne_nil_of_right_ne_nil s.parts.dropLast (List.cons_ne_nil (s.name ++ cs) after))
  rw [hd]
  exact hstart.isInfix.trans <| hrest.isInfix.trans <| List.infix_append ..

-- The text of a path occurs in that of a directory where parts of the directory are those of the
-- path, but for the last, which only has to begin like the path's.
theorem Settled.occurs_iff (hs : s.Settled) (hl : s.lead = 1) (hn : s.parts ≠ []) (hp : p.Settled) :
    s.chars <:+: (joinText p.text "").toList ↔ ∃ before name after,
      p.parts = before ++ s.parts.dropLast ++ name :: after ∧ s.name <+: name := by
  refine ⟨hs.parts_of_occurs hl hn hp, ?_⟩
  rintro ⟨before, _, after, h, l, rfl⟩
  exact hs.occurs_of_parts hl hn hp h

end Path

end SourceFlags
