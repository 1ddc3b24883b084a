import Mathlib.Data.List.Basic
import SourceFlags.Proofs.Text.Split
import SourceFlags.Proofs.Text.Word
import SourceFlags.Toolchain.Directive

namespace SourceFlags.Directive

open Text

def word : Chars := "include".toList

def start : Chars := "#include ".toList

inductive IsHeader : Chars → Prop
  | intro {name : Chars} {sign close : Char} (ho : opens sign = true) (hn : name ≠ [])
      (hm : name.all (fun c => !closes c && c != '\n') = true) (hc : closes close = true) :
      IsHeader (sign :: name ++ [close])

inductive IsWriting : (written directive : Chars) → Prop
  | intro {indent gap space header : Chars} (hi : indent.all isSpaceOrTab = true)
      (hg : gap.all isSpaceOrTab = true) (hs : space.all isSpaceOrTab = true)
      (hh : IsHeader header) :
      IsWriting (indent ++ '#' :: (gap ++ word ++ space ++ header)) (start ++ header)

structure Occurrence where
  before    : Chars
  written   : Chars
  directive : Chars

namespace Occurrence

-- A directive is only one where a line begins.
structure IsIn (text : Chars) (o : Occurrence) : Prop where
  begins  : o.before = [] ∨ o.before.getLast? = some '\n'
  stands  : o.before ++ o.written <+: text
  writing : IsWriting o.written o.directive

def IsBefore (o o' : Occurrence) : Prop :=
  (o.before ++ o.written).length ≤ o'.before.length

def shift (text : Chars) (o : Occurrence) : Occurrence :=
  { o with before := text ++ o.before }

end Occurrence

structure AreOccurrences (text : Chars) (os : List Occurrence) : Prop where
  mem_iff : ∀ o, o ∈ os ↔ o.IsIn text
  ordered : os.Pairwise Occurrence.IsBefore

variable {written written' directive directive' line needle header rest cs text : Chars} {c : Char}
  {o : Occurrence}

theorem isSpaceOrTab_iff : isSpaceOrTab c = true ↔ c = ' ' ∨ c = '\t' := by
  simp [isSpaceOrTab]

theorem after?_gap_iff (hn : needle.head?.any (!isSpaceOrTab ·) = true) :
    after? needle (cs.dropWhile isSpaceOrTab) = some rest ↔
      ∃ gap, gap.all isSpaceOrTab = true ∧ cs = gap ++ needle ++ rest := by
  rw [after?_eq_some_iff]
  constructor
  case mp =>
    intro h
    refine ⟨cs.takeWhile isSpaceOrTab, List.all_takeWhile, ?_⟩
    rw [List.append_assoc, ← h, List.takeWhile_append_dropWhile]
  case mpr =>
    rintro ⟨gap, hg, rfl⟩
    have hn : (needle ++ rest).head?.all (!isSpaceOrTab ·) = true := by
      cases needle
      case nil  => contradiction
      case cons => simpa using hn
    rw [List.append_assoc, (takeWhile_append_of_head? (List.all_eq_true.mp hg) hn).right]

theorem word_begins : word.head?.any (!isSpaceOrTab ·) = true := by
  decide

theorem IsHeader.exists_cut (h : IsHeader header) (rest : Chars) :
    ∃ sign name close, header = sign :: name ++ [close] ∧ opens sign = true ∧ name ≠ [] ∧
      (name ++ close :: rest).takeWhile (!closes ·) = name ∧
      (name ++ close :: rest).dropWhile (!closes ·) = close :: rest := by
  cases h
  case intro name sign close ho hn hm hc =>
    have hm : ∀ c ∈ name, (!closes c) = true :=
      fun c hn => (Bool.and_eq_true_iff.mp (List.all_eq_true.mp hm c hn)).left
    have hr : (close :: rest).head?.all (!!closes ·) = true := by simpa using hc
    exact ⟨sign, name, close, rfl, ho, hn, takeWhile_append_of_head? hm hr⟩

theorem IsHeader.dropWhile (h : IsHeader header) (rest : Chars) :
    (header ++ rest).dropWhile (!opens ·) = header ++ rest ∧
      ((header ++ rest).tail.dropWhile (!closes ·)).tail = rest := by
  obtain ⟨sign, name, close, rfl, ho, -, -, hd⟩ := h.exists_cut rest
  simp [ho, hd]

theorem IsHeader.header?_append (h : IsHeader header) (rest : Chars) :
    header? (header ++ rest) = some header := by
  obtain ⟨sign, name, close, rfl, ho, hn, ht, hd⟩ := h.exists_cut rest
  simp [header?, ht, hd, ho, hn]

theorem header?_eq_some_iff (hl : '\n' ∉ line) :
    header? line = some header ↔ header <+: line ∧ IsHeader header := by
  constructor
  case mp =>
    intro h
    cases line
    case nil => contradiction
    case cons sign cs =>
      simp only [header?] at h
      have ht := List.takeWhile_append_dropWhile (p := (!closes ·)) (l := cs)
      have hf := all_head?_dropWhile (!closes ·) cs
      split at h
      case h_2 => contradiction
      case h_1 close rest hd =>
        obtain ⟨ho, rfl⟩ := Option.ite_none_right_eq_some.mp h |>.imp_right Option.some.inj
        have ⟨ho, hn⟩ := Bool.and_eq_true_iff.mp ho
        rw [hd] at ht hf
        refine ⟨⟨rest, by simp [ht]⟩, .intro ho (by simpa using hn) ?_ (by simpa using hf)⟩
        refine List.all_eq_true.mpr fun c hc => Bool.and_eq_true_iff.mpr ⟨?_, ?_⟩
        · exact List.mem_takeWhile_imp (p := (!closes ·)) hc
        · have hc := (List.takeWhile_subset _) hc
          have hn : c ≠ '\n' := fun he => hl <| he ▸ List.mem_cons_of_mem sign hc
          simpa using hn
  case mpr =>
    rintro ⟨⟨rest, rfl⟩, h⟩
    exact h.header?_append rest

theorem IsHeader.no_newline (h : IsHeader header) : '\n' ∉ header := by
  cases h
  case intro name sign close ho hn hm hc =>
    have hs : sign ≠ '\n' := by rintro rfl; contradiction
    have hl : close ≠ '\n' := by rintro rfl; contradiction
    have hn : '\n' ∉ name := fun hn => by simpa using List.all_eq_true.mp hm _ hn
    simp [hs.symm, hl.symm, hn]

theorem no_newline_of_isSpaceOrTab (h : cs.all isSpaceOrTab = true) : '\n' ∉ cs :=
  fun hm => absurd (List.all_eq_true.mp h _ hm) (by decide)

theorem IsWriting.no_newline (h : IsWriting written directive) :
    '\n' ∉ written ∧ '\n' ∉ directive := by
  cases h
  case intro indent gap space header hi hg hs hh =>
    have hw : '\n' ∉ word ∧ '\n' ∉ start := by decide
    simp [no_newline_of_isSpaceOrTab hi, no_newline_of_isSpaceOrTab hg,
      no_newline_of_isSpaceOrTab hs, hh.no_newline, hw]

theorem IsHeader.begins (h : IsHeader header) : header.head?.any (!isSpaceOrTab ·) = true := by
  cases h
  case intro name sign close ho hn hm hc =>
    have hs : isSpaceOrTab sign = false := Bool.eq_false_iff.mpr fun hs => by
      rcases isSpaceOrTab_iff.mp hs with rfl | rfl <;> contradiction
    simp [hs]

theorem IsWriting.directive?_append (h : IsWriting written directive) (rest : Chars) :
    directive? (written ++ rest) = some directive := by
  cases h
  case intro indent gap space header hi hg hs hh =>
    have ha : after? ['#'] ((indent ++ '#' :: (gap ++ word ++ space ++ header) ++ rest).dropWhile
        isSpaceOrTab) = some (gap ++ word ++ (space ++ (header ++ rest))) :=
      (after?_gap_iff (by decide)).mpr ⟨indent, hi, by simp⟩
    have hw : after? word ((gap ++ word ++ (space ++ (header ++ rest))).dropWhile
        isSpaceOrTab) = some (space ++ (header ++ rest)) :=
      (after?_gap_iff word_begins).mpr ⟨gap, hg, rfl⟩
    have hd : header ++ rest = (space ++ (header ++ rest)).dropWhile isSpaceOrTab :=
      (after?_eq_some_iff.mp <| (after?_gap_iff hh.begins).mpr ⟨space, hs, by simp⟩).symm
    have hh : header? ((space ++ (header ++ rest)).dropWhile isSpaceOrTab) = some header :=
      hd ▸ hh.header?_append rest
    exact Option.bind_eq_some_iff.mpr ⟨_, ha, Option.bind_eq_some_iff.mpr ⟨_, hw,
      Option.bind_eq_some_iff.mpr ⟨header, hh, rfl⟩⟩⟩

theorem directive?_eq_some_iff (hl : '\n' ∉ line) : directive? line = some directive ↔
    ∃ written, written <+: line ∧ IsWriting written directive := by
  constructor
  case mp =>
    intro h
    have ⟨after, ha, h⟩ := Option.bind_eq_some_iff.mp h
    have ⟨indent, hi, he⟩ := (after?_gap_iff (by decide)).mp ha
    have ⟨after', ha', h⟩ := Option.bind_eq_some_iff.mp h
    have ⟨gap, hg, he'⟩ := (after?_gap_iff word_begins).mp ha'
    have ⟨header, hh, h⟩ := Option.bind_eq_some_iff.mp h
    obtain rfl := Option.some.inj h
    have hn : '\n' ∉ after'.dropWhile isSpaceOrTab := by
      intro hm
      have hm := (List.dropWhile_subset _) hm
      exact hl <| by simp [he, he', hm]
    have ⟨⟨rest, hr⟩, hh⟩ := (header?_eq_some_iff hn).mp hh
    have ht : after' = after'.takeWhile isSpaceOrTab ++ (header ++ rest) := by
      rw [hr, List.takeWhile_append_dropWhile]
    have hw := IsWriting.intro hi hg (List.all_takeWhile (l := after')) hh
    refine ⟨_, ⟨rest, ?_⟩, hw⟩
    simpa [he, he'] using ht.symm
  case mpr =>
    rintro ⟨written, ⟨rest, rfl⟩, h⟩
    exact h.directive?_append rest

theorem IsWriting.rest_eq (h : IsWriting written directive) (rest : Chars) :
    (((written ++ rest).dropWhile (!opens ·)).tail.dropWhile (!closes ·)).tail = rest := by
  cases h
  case intro indent gap space header hi hg hs hh =>
    have hb : ∀ c, isSpaceOrTab c = true → (!opens c) = true := fun c hc => by
      rcases isSpaceOrTab_iff.mp hc with rfl | rfl <;> decide
    have hw : word.all (!opens ·) = true := by decide
    have ho : ∀ c ∈ indent ++ '#' :: (gap ++ word ++ space), (!opens c) = true := by
      intro c hc
      simp only [List.mem_append, List.mem_cons] at hc
      rcases hc with hc | rfl | (hc | hc) | hc
      · exact hb c <| List.all_eq_true.mp hi c hc
      · decide
      · exact hb c <| List.all_eq_true.mp hg c hc
      · exact List.all_eq_true.mp hw c hc
      · exact hb c <| List.all_eq_true.mp hs c hc
    have ha : indent ++ '#' :: (gap ++ word ++ space ++ header) ++ rest =
        (indent ++ '#' :: (gap ++ word ++ space)) ++ (header ++ rest) := by simp
    obtain ⟨hd, ht⟩ := hh.dropWhile rest
    rw [ha, List.dropWhile_append_of_pos ho, hd, ht]

theorem IsWriting.unique (h : IsWriting written directive)
    (h' : IsWriting written' directive') (hp : written <+: line) (hp' : written' <+: line) :
    written = written' ∧ directive = directive' := by
  obtain ⟨rest, rfl⟩ := hp
  obtain ⟨rest', he⟩ := hp'
  have hr := h.rest_eq rest
  have hd := h.directive?_append rest
  rw [← he, h'.rest_eq] at hr
  rw [← he, h'.directive?_append] at hd
  exact ⟨(List.append_cancel_right (hr ▸ he)).symm, (Option.some.inj hd).symm⟩

theorem prefix_of_not_mem (h : cs <+: line ++ c :: rest) (hc : c ∉ cs) : cs <+: line := by
  rcases List.prefix_or_prefix_of_prefix h (List.prefix_append line _) with hp | ⟨ds, rfl⟩
  case inl => exact hp
  case inr =>
    have hp := (List.prefix_append_right_inj line).mp h
    cases ds
    case nil => simp
    case cons d ds =>
      obtain rfl := (List.cons_prefix_cons.mp hp).left
      simp at hc

namespace Occurrence

theorem isIn_line_iff (hl : '\n' ∉ line) : o.IsIn line ↔
    o.before = [] ∧ o.written <+: line ∧ IsWriting o.written o.directive := by
  constructor
  case mp =>
    rintro ⟨hb, hs, hw⟩
    have hb : o.before = [] := by
      refine hb.resolve_right fun hb => hl ?_
      have hs := (List.prefix_append _ _).trans hs
      exact hs.subset <| List.mem_of_getLast? hb
    exact ⟨hb, by simpa [hb] using hs, hw⟩
  case mpr =>
    rintro ⟨hb, hs, hw⟩
    exact ⟨.inl hb, by simpa [hb] using hs, hw⟩

theorem isIn_append_iff (hl : '\n' ∉ line) : o.IsIn (line ++ '\n' :: rest) ↔
    o.IsIn line ∨ ∃ o', IsIn rest o' ∧ o'.shift (line ++ ['\n']) = o := by
  constructor
  case mp =>
    rintro ⟨hb, hs, hw⟩
    rcases hb with hb | hb
    case inl =>
      have hs : o.written <+: line ++ '\n' :: rest := by simpa [hb] using hs
      exact .inl ⟨.inl hb, by simpa [hb] using prefix_of_not_mem hs hw.no_newline.left, hw⟩
    case inr =>
      have ha : line ++ '\n' :: rest = line ++ ['\n'] ++ rest := List.append_cons ..
      rw [ha] at hs
      -- The new line before the directive is not in the first line, which is before it as a whole.
      obtain ⟨ds, hd⟩ : line ++ ['\n'] <+: o.before := by
        have hm := List.mem_of_getLast? hb
        have hp := (List.prefix_append o.before _).trans hs
        rcases List.prefix_or_prefix_of_prefix hp (List.prefix_append ..) with hp | hp
        case inr => exact hp
        case inl =>
          have hp := (List.prefix_concat_iff.mp hp).resolve_right fun hp => hl <| hp.subset hm
          exact hp ▸ List.prefix_rfl
      rw [← hd, List.append_assoc] at hs
      refine .inr ⟨{ o with before := ds }, ⟨?_, ?_, hw⟩, by rw [shift, hd]⟩
      · cases ds
        case nil  => exact .inl rfl
        case cons => exact .inr <| by simpa [← hd, List.getLast?_append] using hb
      · exact (List.prefix_append_right_inj _).mp hs
  case mpr =>
    rintro (⟨hb, hs, hw⟩ | ⟨o', ⟨hb, hs, hw⟩, rfl⟩)
    case inl => exact ⟨hb, hs.trans (List.prefix_append ..), hw⟩
    case inr =>
      refine ⟨.inr ?_, by simpa [shift] using hs, hw⟩
      rcases hb with hb | hb <;> simp [shift, hb, List.getLast?_cons]

theorem isBefore_shift_iff {o' : Occurrence} :
    (o.shift text).IsBefore (o'.shift text) ↔ o.IsBefore o' := by
  simp [IsBefore, shift]

end Occurrence

theorem filterMap_feedLines_line (hl : '\n' ∉ line) :
    (feedLines line).filterMap directive? = (directive? line).toList := by
  rw [feedLines, splitOn_of_not_mem hl]
  cases hd : directive? line <;> simp [hd]

theorem filterMap_feedLines_append (cs ds : Chars) :
    (feedLines (cs ++ '\n' :: ds)).filterMap directive? =
      (feedLines cs).filterMap directive? ++ (feedLines ds).filterMap directive? := by
  rw [feedLines, splitOn_append_sep, List.filterMap_append]
  rfl

theorem exists_occurrences_line (hl : '\n' ∉ line) : ∃ os, AreOccurrences line os ∧
    (feedLines line).filterMap directive? = os.map (·.directive) := by
  rw [filterMap_feedLines_line hl]
  cases hd : directive? line
  case none =>
    refine ⟨[], ⟨fun o => ?_, .nil⟩, rfl⟩
    simp only [List.not_mem_nil, false_iff, Occurrence.isIn_line_iff hl]
    rintro ⟨_, ⟨rest, rfl⟩, hw⟩
    simp [hw.directive?_append] at hd
  case some directive =>
    have ⟨written, hp, hw⟩ := (directive?_eq_some_iff hl).mp hd
    refine ⟨[⟨[], written, directive⟩], ⟨fun o => ?_, List.pairwise_singleton ..⟩, rfl⟩
    rw [List.mem_singleton, Occurrence.isIn_line_iff hl]
    constructor
    case mp =>
      rintro rfl
      exact ⟨rfl, hp, hw⟩
    case mpr =>
      rintro ⟨hb, hp', hw'⟩
      have ⟨he, hd⟩ := hw'.unique hw hp' hp
      exact congr (congrArg₂ Occurrence.mk hb he) hd

theorem exists_occurrences (text : Chars) : ∃ os, AreOccurrences text os ∧
    (feedLines text).filterMap directive? = os.map (·.directive) := by
  -- By the length of the text: what follows the first new line is shorter.
  induction hn : text.length using Nat.strongRecOn generalizing text
  case ind n hi =>
    by_cases h : '\n' ∈ text
    case neg => exact exists_occurrences_line h
    case pos =>
      obtain ⟨line, rest, rfl, hl⟩ := List.eq_append_cons_of_mem h
      have ⟨os, ho, hd⟩ := exists_occurrences_line hl
      have ⟨os', ho', hd'⟩ := hi rest.length (by simp [← hn]; omega) rest rfl
      refine ⟨os ++ os'.map (·.shift (line ++ ['\n'])), ⟨fun o => ?_, ?_⟩, ?_⟩
      · simp [Occurrence.isIn_append_iff hl, ho.mem_iff, ho'.mem_iff]
      -- Those of the rest are moved behind the first line, so they come after those in it.
      · refine List.pairwise_append.mpr ⟨ho.ordered, ?_, ?_⟩
        · rw [List.pairwise_map]
          exact ho'.ordered.imp Occurrence.isBefore_shift_iff.mpr
        · intro o hm o' hm'
          obtain ⟨o', _, rfl⟩ := List.mem_map.mp hm'
          have hs := ((ho.mem_iff o).mp hm).stands.length_le
          simp only [Occurrence.IsBefore, Occurrence.shift, List.length_append] at hs ⊢
          omega
      · rw [filterMap_feedLines_append, hd, hd', List.map_append, List.map_map]
        rfl

theorem start_eq : start = '#' :: (word ++ [' ']) := by
  decide

theorem IsWriting.directive_self (h : IsWriting written directive) :
    IsWriting directive directive := by
  cases h
  case intro indent gap space header hi hg hs hh =>
    have hn : List.all [] isSpaceOrTab = true := rfl
    have hw := IsWriting.intro hn hn (by decide : [' '].all isSpaceOrTab = true) hh
    simpa [start_eq] using hw

theorem exists_isWriting_of_mem_filterMap
    (h : directive ∈ (feedLines text).filterMap directive?) :
    ∃ written, IsWriting written directive := by
  have ⟨line, hm, hd⟩ := List.mem_filterMap.mp h
  have ⟨written, _, hw⟩ := (directive?_eq_some_iff (not_mem_of_mem_splitOn hm)).mp hd
  exact ⟨written, hw⟩

theorem filterMap_feedLines_join {ds : List Chars} (h : ∀ d ∈ ds, ∃ written, IsWriting written d) :
    (feedLines (join ['\n'] ds)).filterMap directive? = ds := by
  by_cases hn : ds = []
  case pos => rw [hn]; decide
  case neg =>
    have hl : ∀ d ∈ ds, '\n' ∉ d := fun d hm =>
      have ⟨_, hw⟩ := h d hm
      hw.no_newline.right
    have hd : ∀ d ∈ ds, directive? d = some d := fun d hm => by
      have ⟨_, hw⟩ := h d hm
      simpa using hw.directive_self.directive?_append []
    rw [feedLines, splitOn_join hl hn, List.filterMap_congr hd]
    exact List.filterMap_some

-- The directives of a text are those of its lines, whatever two texts a new line joins. A text that
-- is made of the directives that were read has just them.
theorem read_line_by_line :
    (∀ s t, read (s ++ "\n" ++ t) = read s ++ read t) ∧
    (∀ s, read (String.ofList (join ['\n'] ((read s).map String.toList))) = read s) ∧
    ∀ s : String, ∃ os, AreOccurrences s.toList os ∧
      read s = os.map fun o => String.ofList o.directive := by
  refine ⟨fun s t => ?_, fun s => ?_, fun s => ?_⟩
  · have ha : (s ++ "\n" ++ t).toList = s.toList ++ '\n' :: t.toList := by simp
    rw [read, ha, filterMap_feedLines_append, List.map_append]
    rfl
  · have hw : ∀ d ∈ (feedLines s.toList).filterMap directive?, ∃ written, IsWriting written d :=
      fun _ => exists_isWriting_of_mem_filterMap
    have hm : (read s).map String.toList = (feedLines s.toList).filterMap directive? := by
      simp [read]
    rw [hm, read, String.toList_ofList, filterMap_feedLines_join hw]
    rfl
  · have ⟨os, ho, hd⟩ := exists_occurrences s.toList
    refine ⟨os, ho, ?_⟩
    rw [read, hd, List.map_map]
    rfl

end SourceFlags.Directive
