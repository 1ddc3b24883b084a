import SourceFlags.Proofs.Automake.Counted
import SourceFlags.Proofs.Automake.Joining
import SourceFlags.Proofs.Text.Word

namespace SourceFlags.Automake

open Text

def isName : Chars → Bool
  | []      => false
  | c :: cs => isNameFirst c && cs.all isNamePart

def isPlain (c : Char) : Bool :=
  c != '#' && c != '\\' && !isLineBreak c

structure Assignment.IsPlain (a : Assignment) : Prop where
  named   : isName a.name.toList = true
  trimmed : a.IsTrimmed
  plain   : a.value.toList.all isPlain = true

def signs : (appends : Bool) → List Chars
  | true  => [['+', '=']]
  | false => [['='], [':', '=']]

def Assignment.line (a : Assignment) (sign : Chars) : Chars :=
  a.name.toList ++ ' ' :: sign ++ ' ' :: a.value.toList

def isIdle (line : Chars) : Bool :=
  line.all isBlank || (trimStart line).head? == some '#' || line.head? == some '\t'

-- The lines of a text that makes some assignments. An empty last line stands for a final new line.
inductive AreLines : List Assignment → List Chars → Prop
  | nil : AreLines [] []
  | assignment {a : Assignment} {as : List Assignment} {written : Chars} {ls : List Chars}
      (sign : Chars) (ha : a.IsPlain) (hs : sign ∈ signs a.appends)
      (hw : IsWriting (a.line sign) written) (h : AreLines as ls) :
      AreLines (a :: as) (written :: ls)
  | idle {as : List Assignment} {line : Chars} {ls : List Chars}
      (hi : isIdle line = true) (hb : line.any isLineBreak = false)
      (he : line.getLast? ≠ some '\\') (h : AreLines as ls) : AreLines as (line :: ls)

variable {a : Assignment} {as : List Assignment} {sign line cs : Chars} {ls : List Chars} {c : Char}

theorem isNamePart_of_isNameFirst (h : isNameFirst c = true) : isNamePart c = true := by
  simp only [isNameFirst, isNamePart, Char.isAlphanum, Bool.or_eq_true] at h ⊢
  tauto

theorem isBlank_eq_false_of_isNamePart (h : isNamePart c = true) : isBlank c = false := by
  simp only [isNamePart, Bool.or_eq_true, beq_iff_eq] at h
  rcases h with ((ha | rfl) | rfl) | rfl
  case inl.inl.inl => exact isBlank_eq_false_of_isWordChar (isWordChar_of_isAlphanum ha)
  all_goals decide

theorem isPlain_iff : isPlain c = true ↔ c ≠ '#' ∧ c ≠ '\\' ∧ isLineBreak c = false := by
  simp [isPlain, and_assoc]

theorem isPlain_of_isNamePart (h : isNamePart c = true) : isPlain c = true := by
  have hl : isLineBreak c = false := by
    refine Bool.eq_false_iff.mpr fun hl => ?_
    simpa [isBlank_eq_false_of_isNamePart h] using isBlank_of_isLineBreak hl
  refine isPlain_iff.mpr ⟨?_, ?_, hl⟩ <;> rintro rfl <;> exact absurd h (by decide)

theorem isName_iff : isName cs = true ↔
    ∃ c ds, cs = c :: ds ∧ isNameFirst c = true ∧ ∀ d ∈ ds, isNamePart d = true := by
  cases cs <;> simp [isName, and_assoc]

theorem mem_signs_iff {appends : Bool} : sign ∈ signs appends ↔
    appends = true ∧ sign = ['+', '='] ∨ appends = false ∧ (sign = ['='] ∨ sign = [':', '=']) := by
  cases appends <;> simp [signs]

theorem sign?_of_mem_signs {appends : Bool} (h : sign ∈ signs appends) (cs : Chars) :
    sign? (trimStart (' ' :: (sign ++ cs))) = some (appends, cs) := by
  rcases mem_signs_iff.mp h with ⟨rfl, rfl⟩ | ⟨rfl, rfl | rfl⟩ <;> rfl

theorem exists_of_mem_signs {appends : Bool} (h : sign ∈ signs appends) :
    ∃ start, sign = start ++ ['='] ∧ sign.all isPlain = true := by
  rcases mem_signs_iff.mp h with ⟨rfl, rfl⟩ | ⟨rfl, rfl | rfl⟩
  case inl     => exact ⟨['+'], rfl, by decide⟩
  case inr.inl => exact ⟨[], rfl, by decide⟩
  case inr.inr => exact ⟨[':'], rfl, by decide⟩

namespace Assignment.IsPlain

theorem line_plain (h : a.IsPlain) (hs : sign ∈ signs a.appends) :
    ∀ c ∈ a.line sign, isPlain c = true := by
  have hn : ∀ c ∈ a.name.toList, isPlain c = true := fun d hd => by
    obtain ⟨c, cs, hn, hc, hcs⟩ := isName_iff.mp h.named
    rw [hn] at hd
    rcases List.mem_cons.mp hd with rfl | hd
    case inl => exact isPlain_of_isNamePart (isNamePart_of_isNameFirst hc)
    case inr => exact isPlain_of_isNamePart (hcs d hd)
  have ⟨_, _, hp⟩ := exists_of_mem_signs hs
  simp only [Assignment.line, List.forall_mem_append, List.forall_mem_cons]
  exact ⟨⟨hn, by decide, List.all_eq_true.mp hp⟩, by decide, List.all_eq_true.mp h.plain⟩

-- The sign ends in what is not blank, so only what follows it is trimmed.
theorem code_line (h : a.IsPlain) (hs : sign ∈ signs a.appends) :
    code (a.line sign) = a.name.toList ++ ' ' :: (sign ++ trimEnd (' ' :: a.value.toList)) := by
  have ⟨start, hst, _⟩ := exists_of_mem_signs hs
  have ht : (a.line sign).takeWhile (· != '#') = a.line sign :=
    List.takeWhile_eq_self_iff.mpr fun c hc => by
      simpa using (isPlain_iff.mp <| h.line_plain hs c hc).left
  have hl : a.line sign = (a.name.toList ++ ' ' :: start) ++ '=' :: (' ' :: a.value.toList) := by
    simp [Assignment.line, hst]
  rw [code, ht, hl, trimEnd_append_cons (by decide), hst]
  simp

theorem read (h : a.IsPlain) (hs : sign ∈ signs a.appends) :
    assignment? (a.line sign) = some a := by
  have ⟨c, cs, hn, hc, hcs⟩ := isName_iff.mp h.named
  have hb : isNamePart ' ' = false := by decide
  have hv : trim (trimEnd (' ' :: a.value.toList)) = a.value.toList := by
    rw [trim_trimEnd, trim_cons_of_blank (by decide), h.trimmed]
  simp only [assignment?, h.code_line hs, hn, List.cons_append, hc, if_true,
    List.takeWhile_append_of_pos hcs, List.dropWhile_append_of_pos hcs, List.takeWhile_cons,
    List.dropWhile_cons, hb, Bool.false_eq_true, if_false, sign?_of_mem_signs hs, Option.map_some]
  rw [hv, List.append_nil, ← hn, String.ofList_toList, String.ofList_toList]

end Assignment.IsPlain

theorem code_prefix (line : Chars) : code line <+: line :=
  (List.rdropWhile_prefix ..).trans (List.takeWhile_prefix _)

theorem read_idle (h : isIdle line = true) : assignment? line = none := by
  unfold assignment?
  split
  case h_1 => rfl
  case h_2 c cs hc =>
    have ⟨ds, hd⟩ := hc ▸ code_prefix line
    refine if_neg fun hf => ?_
    have hb := isBlank_eq_false_of_isNamePart (isNamePart_of_isNameFirst hf)
    have he : c = '#' ∨ c = '\t' := by simpa [isIdle, ← hd, trimStart, hb] using h
    rcases he with rfl | rfl <;> exact absurd hf (by decide)

theorem read_cons {whole : Chars} (hb : ∀ c ∈ whole, isLineBreak c = false)
    (hj : ∀ rest : Chars, (∀ c ∈ rest.head?, c = '\n') →
      joinContinued (line ++ rest) = whole ++ joinContinued rest) :
    (lines (joinContinued (join ['\n'] (line :: ls)))).filterMap assignment? =
      (assignment? whole).toList ++
        (lines (joinContinued (join ['\n'] ls))).filterMap assignment? := by
  by_cases hl : ls = []
  case pos =>
    have he : joinContinued line = whole := by simpa [joinContinued, joinFrom] using hj [] (by simp)
    have hs : join ['\n'] [line] = line := rfl
    rw [hl, hs, he]
    by_cases hw : whole = []
    case pos => rw [hw]; rfl
    case neg =>
      rw [lines_of_unbroken hb hw]
      cases h : assignment? whole <;> simp [h, joinContinued, joinFrom, join, lines]
  case neg =>
    have hn : ∀ cs, joinContinued ('\n' :: cs) = '\n' :: joinContinued cs := fun cs => by
      simp [joinContinued, joinFrom_cons, isSpaceOrTab]
    rw [join_cons _ _ hl, List.append_assoc, List.singleton_append, hj _ (by simp), hn,
      lines_append_newline hb, List.filterMap_cons]
    cases assignment? whole <;> rfl

theorem AreLines.read (h : AreLines as ls) :
    (lines (joinContinued (join ['\n'] ls))).filterMap assignment? = as := by
  induction h
  case nil => rfl
  case assignment a as written ls sign ha hs hw _ hi =>
    have hp := fun c hc => isPlain_iff.mp <| ha.line_plain hs c hc
    have hl : ∀ c ∈ a.line sign, c ≠ '\\' ∧ c ≠ '\n' := fun c hc =>
      ⟨(hp c hc).right.left, fun he => absurd (he ▸ (hp c hc).right.right) (by decide)⟩
    rw [read_cons (fun c hc => (hp c hc).right.right) (fun _ => hw.joined hl), ha.read hs, hi]
    rfl
  case idle as line ls hl hb he _ hi =>
    replace hb : ∀ c ∈ line, isLineBreak c = false := by simpa using hb
    have hn : '\n' ∉ line := fun hm => absurd (hb _ hm) (by decide)
    have hj : ∀ rest : Chars, (∀ c ∈ rest.head?, c = '\n') →
        joinContinued (line ++ rest) = line ++ joinContinued rest := fun rest hr =>
      joinFrom_append hn (absurd · he) (fun c hc => hr c hc ▸ by decide) []
    rw [read_cons hb hj, read_idle hl, hi]
    rfl

theorem AreLines.isTrimmed (h : AreLines as ls) : ∀ a ∈ as, a.IsTrimmed := by
  induction h
  case nil                      => simp
  case assignment ha _ _ _ hi   => exact List.forall_mem_cons.mpr ⟨ha.trimmed, hi⟩
  case idle hi                  => exact hi

theorem bindings_of_lines (h : AreLines as ls) :
    bindings (String.ofList (join ['\n'] ls)) =
      Table.tabulate (as.map (·.name)).eraseDups fun name =>
        joined (as.filter (·.name = name)) := by
  rw [bindings, String.toList_ofList, h.read]
  exact foldl_assign h.isTrimmed

theorem bindings_of_lines_broken :
    bindings "A = x \\\n\ty\n# A = z\n\tA = w\n\nB := 1\nA += \nA += v\n" =
      [("A", "x y v"), ("B", "1")] := by
  have hx : IsWriting "A = x y".toList "A = x \\\n\ty".toList :=
    .broken "A = ".toList [' '] ['\t'] (by decide) (by decide) (by decide) (by decide) <|
      .whole ['y']
  have h : AreLines
      [⟨"A", false, "x y"⟩, ⟨"B", false, "1"⟩, ⟨"A", true, ""⟩, ⟨"A", true, "v"⟩]
      ["A = x \\\n\ty".toList, "# A = z".toList, "\tA = w".toList, [], "B := 1".toList,
        "A += ".toList, "A += v".toList, []] :=
    .assignment ['='] ⟨by decide, by decide, by decide⟩ (by decide) hx <|
    .idle (by decide) (by decide) (by decide) <|
    .idle (by decide) (by decide) (by decide) <|
    .idle (by decide) (by decide) (by decide) <|
    .assignment [':', '='] ⟨by decide, by decide, by decide⟩ (by decide) (.whole _) <|
    .assignment ['+', '='] ⟨by decide, by decide, by decide⟩ (by decide) (.whole _) <|
    .assignment ['+', '='] ⟨by decide, by decide, by decide⟩ (by decide) (.whole _) <|
    .idle (by decide) (by decide) (by decide) .nil
  exact (congrArg bindings (by decide)).trans <|
    (bindings_of_lines h).trans (by decide)

end SourceFlags.Automake
