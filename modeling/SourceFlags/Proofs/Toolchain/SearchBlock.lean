import SourceFlags.Proofs.Text.Trim
import SourceFlags.Toolchain.SearchList

namespace SourceFlags.SearchList

open Text

structure IsEntry (entry : Chars) : Prop where
  begins   : entry.head?.any (!isBlank ·) = true
  ends     : entry.getLast?.all (!isBlank ·) = true
  unbroken : entry.any isLineBreak = false

inductive CountsFor : (entry : Chars) → (path : String) → Prop
  | plain (path : String) (h : ¬frameworkMark <:+ path.toList) : CountsFor path.toList path
  | framework (path : String) : CountsFor (path.toList ++ frameworkMark) path

inductive AreRows : List String → List Chars → Prop
  | nil : AreRows [] []
  | cons {path : String} {entry : Chars} {paths : List String} {rows : List Chars}
      (blanks : Chars) (he : IsEntry entry) (hc : CountsFor entry path)
      (hb : blanks.all isSpaceOrTab = true) (h : AreRows paths rows) :
      AreRows (path :: paths) ((' ' :: (entry ++ blanks)) :: rows)

variable {platform : Platform} {path : String} {paths : List String}
  {line first last entry blanks cs before : Chars} {rows outside inside rest : List Chars}

theorem isStart_eq_false (h : ¬startMarker <+: line) : isStart line = false := by
  simp only [isStart, after?_eq_none_iff.mpr h]

theorem block_eq (ho : ∀ l ∈ outside, isStart l = false) (hf : isStart first = true)
    (hi : ∀ l ∈ inside, isEnd l = false) (hl : isEnd last = true) :
    block (outside ++ first :: (inside ++ last :: rest)) = inside := by
  have ho : ∀ l ∈ outside, (!isStart l) = true := by simpa using ho
  have hi : ∀ l ∈ inside, (!isEnd l) = true := by simpa using hi
  simp [block, List.dropWhile_append_of_pos ho, hf, List.takeWhile_append_of_pos hi, hl]

theorem feedLines_append (h : before = [] ∨ before.getLast? = some '\n') (cs : Chars) :
    ∃ ls, feedLines (before ++ cs) = ls ++ feedLines cs ∧ ls ⊆ feedLines before := by
  rcases h with rfl | h
  case inl => exact ⟨[], rfl, List.nil_subset _⟩
  case inr =>
    have ⟨text, ht⟩ := List.getLast?_eq_some_iff.mp h
    refine ⟨feedLines text, ?_, ?_⟩
    · rw [ht, List.append_assoc, List.singleton_append]
      exact splitOn_append_sep '\n' text cs
    · rw [ht, feedLines, feedLines, splitOn_append_sep]
      exact List.subset_append_left ..

theorem CountsFor.withoutMark (h : CountsFor entry path) :
    SearchList.withoutMark entry = path.toList := by
  unfold SearchList.withoutMark
  cases h
  case plain h     => rw [if_neg (mt List.isSuffixOf_iff_suffix.mp h)]
  case framework _ => rw [if_pos (List.isSuffixOf_iff_suffix.mpr <| List.suffix_append ..)]; simp

theorem IsEntry.listed (h : IsEntry entry) (hb : blanks.all isSpaceOrTab = true) :
    listed? (' ' :: (entry ++ blanks)) = some entry := by
  have hb : ∀ b ∈ blanks, isBlank b = true :=
    fun b hm => isBlank_of_isSpaceOrTab (List.all_eq_true.mp hb b hm)
  have ht := (trimEnd_append_of_blank hb entry).trans (trimEnd_of_getLast h.ends)
  cases entry
  case nil       => exact absurd h.begins (by decide)
  case cons c cs =>
    have hc : isBlank c = false := by simpa using h.begins
    simpa [listed?, hc] using ht

theorem AreRows.no_break (h : AreRows paths rows) :
    ∀ row ∈ rows, (∀ c ∈ row, isLineBreak c = false) ∧ row.head? = some ' ' := by
  induction h
  case nil => simp
  case cons entry _ _ blanks he _ hb _ hi =>
    refine List.forall_mem_cons.mpr ⟨⟨?_, rfl⟩, hi⟩
    have hb : ∀ b ∈ blanks, isLineBreak b = false := fun b hm => by
      rcases (by simpa [isSpaceOrTab] using List.all_eq_true.mp hb b hm : b = ' ' ∨ b = '\t')
        with rfl | rfl <;> decide
    simp only [List.forall_mem_cons, List.forall_mem_append]
    exact ⟨by decide, by simpa using he.unbroken, hb⟩

theorem AreRows.directories (hp : platform.usesDrives = false) (h : AreRows paths rows) :
    (rows.flatMap lines).filterMap (directory? platform) =
      (paths.filter Path.isAbsolute).map Path.normalText := by
  induction h
  case nil => rfl
  case cons path entry paths rows blanks he hc hb h hi =>
    have ⟨hu, _⟩ := (AreRows.cons blanks he hc hb h).no_break _ List.mem_cons_self
    have hd : directory? platform (' ' :: (entry ++ blanks)) =
        if Path.isAbsolute path then some (Path.normalText path) else none := by
      rw [directory?, he.listed hb]
      simp [hc.withoutMark, Platform.isAbsolute, hp, Path.isAbsolute]
    rw [List.flatMap_cons, lines_of_unbroken hu (by simp), List.singleton_append,
      List.filterMap_cons, hd, hi]
    split <;> simp_all

-- What stands before and after the block counts for nothing, also where it looks like an entry.
theorem read_rows (before after : Chars) (hp : platform.usesDrives = false)
    (hb : before = [] ∨ before.getLast? = some '\n')
    (hs : ∀ line ∈ feedLines before, ¬startMarker <+: line) (h : AreRows paths rows) :
    read platform (String.ofList
        (before ++ join ['\n'] (startMarker :: rows ++ [endMarker ++ after]))) =
      (paths.filter Path.isAbsolute).map Path.normalText := by
  have hn : ∀ l ∈ startMarker :: rows, '\n' ∉ l := by
    refine List.forall_mem_cons.mpr ⟨by decide, fun row hr hm => ?_⟩
    exact absurd ((h.no_break row hr).left _ hm) (by decide)
  have ⟨ls, hls, hsub⟩ :=
    feedLines_append hb (join ['\n'] (startMarker :: rows ++ [endMarker ++ after]))
  have ⟨last, rest, hl⟩ := List.exists_cons_of_ne_nil (splitWhere_ne_nil (p := (· == '\n')) after)
  have hl : splitOn '\n' (endMarker ++ after) = (endMarker ++ last) :: rest :=
    splitOn_append_of_not_mem (by decide) hl
  have ho : ∀ l ∈ ls, isStart l = false := fun l hm => isStart_eq_false (hs l (hsub hm))
  have hi : ∀ l ∈ rows, isEnd l = false := fun l hm => by
    have ⟨cs, hc⟩ := List.head?_eq_some_iff.mp (h.no_break l hm).right
    rw [hc]
    rfl
  have he : isEnd (endMarker ++ last) = true := by simp [isEnd]
  rw [read, String.toList_ofList, hls, feedLines, splitOn_join_concat hn, hl, List.cons_append,
    block_eq ho (by decide) hi he, h.directories hp]

theorem read_rows_amid :
    read "linux" (" cc1 -v\n /quoted\n#include <...> search starts here:\n /a/../b \t\n C:/d\n" ++
      " /F (framework directory)\n /b\nEnd of search list.\n /late\n" ++
      "#include <...> search starts here:\n /later\n") = ["/b", "/F", "/b"] := by
  have h := AreRows.cons [' ', '\t'] ⟨by decide, by decide, by decide⟩
      (.plain "/a/../b" (by decide)) (by decide) <|
    .cons [] ⟨by decide, by decide, by decide⟩ (.plain "C:/d" (by decide)) (by decide) <|
    .cons [] ⟨by decide, by decide, by decide⟩ (.framework "/F") (by decide) <|
    .cons [] ⟨by decide, by decide, by decide⟩ (.plain "/b" (by decide)) (by decide) .nil
  have hr := read_rows " cc1 -v\n /quoted\n".toList
    "\n /late\n#include <...> search starts here:\n /later\n".toList
    (by decide : Platform.usesDrives "linux" = false) (.inr (by decide))
    (by decide) h
  exact (congrArg (read "linux") (by cbv)).trans (hr.trans (by decide))

end SourceFlags.SearchList
