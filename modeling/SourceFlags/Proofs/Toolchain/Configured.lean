import Mathlib.Data.List.Forall2
import SourceFlags.Proofs.Table
import SourceFlags.Proofs.Text.Words
import SourceFlags.Toolchain.VersionReport

namespace SourceFlags.VersionReport

open Text

structure Argument where
  name  : String
  value : Option Chars

def quoteChar (c : Char) : Chars :=
  if c = '\'' then ['\'', '\\', '\'', '\''] else [c]

-- A text with blanks is printed in quotes. Other texts may be, as some of their signs ask for it.
inductive IsPrinted : (text written : Chars) → Prop
  | plain {text : Chars} (h : text.any isBlank = false) : IsPrinted text text
  | quoted (text : Chars) : IsPrinted text ('\'' :: text.flatMap quoteChar ++ ['\''])

def isName (name : Chars) : Bool :=
  name.head?.any (· != '-') && name.all fun c => c != '=' && !isBlank c

inductive IsWriting : Argument → (written : Chars) → Prop
  | bare {name : String} (h : isName name.toList = true) :
      IsWriting ⟨name, none⟩ ('-' :: '-' :: name.toList)
  | valued {name : String} {value written : Chars} (h : isName name.toList = true)
      (hw : IsPrinted value written) :
      IsWriting ⟨name, some value⟩ ('-' :: '-' :: name.toList ++ '=' :: written)

inductive IsLine : (script : Option Chars) → List Argument → List Chars → Prop
  | options {arguments : List Argument} {written : List Chars}
      (h : List.Forall₂ IsWriting arguments written) : IsLine none arguments written
  | script {path first : Chars} {arguments : List Argument} {written : List Chars}
      (hp : path.head?.any (· != '-') = true) (hf : IsPrinted path first)
      (h : List.Forall₂ IsWriting arguments written) :
      IsLine (some path) arguments (first :: written)

def fragments (written : Chars) : List Chars :=
  (words written).tail

def Names (word : Chars) (name : String) : Prop :=
  ∃ dashes rest, word = dashes ++ name.toList ++ rest ∧ dashes.all (· == '-') = true ∧
    name.toList.head?.any (· != '-') = true ∧ '=' ∉ name.toList ∧ rest.head?.all (· == '=') = true

def NamedIn (ws : List Chars) (name : String) : Prop :=
  ∃ word ∈ ws, Names word name

variable {ws us pieces : List Chars} {name : String} {word written text dashes rest : Chars}
  {a : Argument} {arguments : List Argument} {script : Option Chars}

theorem namedIn_cons_iff : NamedIn (word :: ws) name ↔ Names word name ∨ NamedIn ws name :=
  List.exists_mem_cons_iff ..

theorem namedIn_append_iff : NamedIn (ws ++ us) name ↔ NamedIn ws name ∨ NamedIn us name := by
  simp only [NamedIn, List.mem_append, or_and_right, exists_or]

theorem option?_append (hd : dashes.all (· == '-') = true)
    (hn : name.toList.head?.any (· != '-') = true) (he : '=' ∉ name.toList)
    (hr : rest.head?.all (· == '=') = true) :
    option? (dashes ++ name.toList ++ rest) = some (name, rest.tail?.map String.ofList) := by
  have hd := List.all_eq_true.mp hd
  have hk : ∀ c ∈ dashes ++ name.toList, (c != '=') = true := by
    refine List.forall_mem_append.mpr ⟨fun c hc => ?_, fun c hc => ?_⟩
    · rw [beq_iff_eq.mp (hd c hc)]
      decide
    · simpa using fun h : c = '=' => he (h ▸ hc)
  have hs : name.toList.head?.all (fun c => !(c == '-')) = true ∧ name.toList ≠ [] := by
    cases hc : name.toList
    case nil  => simp [hc] at hn
    case cons => simpa [hc] using hn
  have hr : rest.head?.all (fun c => !(c != '=')) = true := by simpa [bne] using hr
  have ⟨ht, hv⟩ := takeWhile_append_of_head? hk hr
  have ⟨_, hw⟩ := takeWhile_append_of_head? hd hs.left
  simp only [option?, ht, hv, hw, String.ofList_toList]
  simp [hs.right]

theorem option?_eq_some_iff : (∃ value, option? word = some (name, value)) ↔ Names word name := by
  constructor
  case mp =>
    rintro ⟨value, h⟩
    simp only [option?, Option.ite_none_left_eq_some, Option.some.injEq, Prod.mk.injEq] at h
    obtain ⟨hn, rfl, -⟩ := h
    let key := word.takeWhile (· != '=')
    have hk : key ++ word.dropWhile (· != '=') = word := List.takeWhile_append_dropWhile
    have hs : key.takeWhile (· == '-') ++ key.dropWhile (· == '-') = key :=
      List.takeWhile_append_dropWhile
    have hd := all_head?_dropWhile (· == '-') key
    have hr := all_head?_dropWhile (· != '=') word
    simp only [bne, Bool.not_not] at hr
    refine ⟨key.takeWhile (· == '-'), word.dropWhile (· != '='), ?_, List.all_takeWhile, ?_, ?_, hr⟩
    · rw [String.toList_ofList]
      exact (hs.symm ▸ hk.symm :)
    · rw [String.toList_ofList]
      cases hc : key.dropWhile (· == '-')
      case nil  => exact absurd (List.isEmpty_iff.mpr hc) hn
      case cons => simpa [hc] using hd
    · rw [String.toList_ofList]
      intro hm
      have := List.mem_takeWhile_imp ((List.dropWhile_sublist _).subset hm)
      simp at this
  case mpr =>
    rintro ⟨dashes, rest, rfl, hd, hn, he, hr⟩
    exact ⟨_, option?_append hd hn he hr⟩

theorem names_iff_of_append (hd : dashes.all (· == '-') = true)
    (hn : name.toList.head?.any (· != '-') = true) (he : '=' ∉ name.toList)
    (hr : rest.head?.all (· == '=') = true) (other : String) :
    Names (dashes ++ name.toList ++ rest) other ↔ other = name := by
  rw [← option?_eq_some_iff, option?_append hd hn he hr]
  simp [eq_comm]

theorem isName_iff : isName text = true ↔
    text.head?.any (· != '-') = true ∧ '=' ∉ text ∧ ∀ c ∈ text, isBlank c = false := by
  simp only [isName, Bool.and_eq_true, List.all_eq_true, bne_iff_ne, Bool.not_eq_true',
    forall_and, imp_not_comm]
  simp

theorem words_option (h : isName name.toList = true) (rest : Chars)
    (hr : rest.head?.all (· == '=') = true) :
    ∃ first, words ('-' :: '-' :: name.toList ++ rest) =
        first :: fragments ('-' :: '-' :: name.toList ++ rest) ∧
      first.head? = some '-' ∧ ∀ other, Names first other ↔ other = name := by
  have ⟨hn, he, hb⟩ := isName_iff.mp h
  have hd : ['-', '-'].all (· == '-') = true := by decide
  have hb : ∀ c ∈ '-' :: '-' :: name.toList, isBlank c = false := by
    simp only [List.forall_mem_cons]
    exact ⟨by decide, by decide, hb⟩
  have hr : (rest.takeWhile (!isBlank ·)).head?.all (· == '=') = true := by
    cases rest
    case nil       => rfl
    case cons c cs =>
      obtain rfl : c = '=' := by simpa using hr
      rfl
  have hw := words_append_of_unblank hb (by simp) rest
  rw [fragments, hw]
  exact ⟨_, rfl, rfl, names_iff_of_append hd hn he hr⟩

theorem IsWriting.words_eq (h : IsWriting a written) :
    ∃ first, words written = first :: fragments written ∧ first.head? = some '-' ∧
      ∀ name, Names first name ↔ name = a.name := by
  cases h
  case bare h     => simpa using words_option h [] rfl
  case valued h _ => exact words_option h _ rfl

theorem IsPrinted.words_eq (h : IsPrinted text written) (ht : text.head?.any (· != '-') = true) :
    ∃ first, words written = first :: fragments written ∧ first.head? ≠ some '-' := by
  cases h
  case plain h =>
    have hn : written ≠ [] := by
      rintro rfl
      contradiction
    have hw := words_of_unblank (by simpa using h) hn
    refine ⟨written, by rw [fragments, hw]; rfl, fun hd => ?_⟩
    simp [hd] at ht
  case quoted =>
    have hq : ∀ c ∈ ['\''], isBlank c = false := List.forall_mem_singleton.mpr (by decide)
    have hw := words_append_of_unblank hq (by simp) (text.flatMap quoteChar ++ ['\''])
    rw [List.singleton_append] at hw
    rw [List.cons_append, fragments, hw]
    exact ⟨_, rfl, by simp⟩

theorem IsPrinted.no_blank (h : IsPrinted text written) (ht : text.any isBlank = false) :
    written.any isBlank = false := by
  cases h
  case plain => exact ht
  case quoted =>
    have hq : ∀ c ∈ text, (quoteChar c).any isBlank = false := fun c hc => by
      unfold quoteChar
      split
      case isTrue  => decide
      case isFalse => simpa using List.any_eq_false.mp ht c hc
    have hs : isBlank '\'' = false := by decide
    simpa [hs] using hq

theorem fragments_of_no_blank (h : written.any isBlank = false) : fragments written = [] := by
  by_cases hn : written = []
  case pos => rw [hn]; rfl
  case neg => rw [fragments, words_of_unblank (by simpa using h) hn]; rfl

theorem IsWriting.no_blank (h : IsWriting a written)
    (ha : ∀ value ∈ a.value, value.any isBlank = false) : written.any isBlank = false := by
  have hd : isBlank '-' = false := by decide
  have he : isBlank '=' = false := by decide
  have hn {name : String} (h : isName name.toList = true) : name.toList.any isBlank = false := by
    simpa using (isName_iff.mp h).right.right
  cases h
  case bare h      => simp only [List.any_cons, hd, hn h, Bool.or_self]
  case valued h hw =>
    simp only [List.any_append, List.any_cons, hd, he, hn h, hw.no_blank (ha _ rfl), Bool.or_self]

theorem namedIn_words_iff (h : List.Forall₂ IsWriting arguments pieces) (name : String) :
    NamedIn (pieces.flatMap words) name ↔
      name ∈ arguments.map (·.name) ∨ NamedIn (pieces.flatMap fragments) name := by
  induction h
  case nil => simp [NamedIn]
  case cons ha _ hi =>
    have ⟨first, hw, _, hn⟩ := ha.words_eq
    rw [List.flatMap_cons, List.flatMap_cons, hw, List.map_cons, List.mem_cons, List.cons_append,
      namedIn_cons_iff, namedIn_append_iff, namedIn_append_iff, hn, hi]
    tauto

theorem fragments_eq_nil (h : List.Forall₂ IsWriting arguments pieces)
    (ha : ∀ a ∈ arguments, ∀ value ∈ a.value, value.any isBlank = false) :
    pieces.flatMap fragments = [] := by
  induction h
  case nil => rfl
  case cons hw _ hi =>
    have ⟨hv, hvs⟩ := List.forall_mem_cons.mp ha
    rw [List.flatMap_cons, fragments_of_no_blank (hw.no_blank hv), hi hvs, List.append_nil]

namespace IsLine

-- The path of the script is left out, but if it is quoted only up to its first blank.
theorem namedIn_optionWords_iff {lead : Chars} (hl : ∀ c ∈ lead, isBlank c = true)
    (h : IsLine script arguments pieces) (name : String) :
    NamedIn (optionWords (lead ++ join [' '] pieces)) name ↔
      name ∈ arguments.map (·.name) ∨ NamedIn (pieces.flatMap fragments) name := by
  rw [optionWords, words_append_of_blanks hl, words_join]
  cases h
  case options h =>
    rw [← namedIn_words_iff h]
    cases h
    case nil       => rfl
    case cons ha _ =>
      have ⟨first, hw, hf, _⟩ := ha.words_eq
      simp only [List.flatMap_cons, hw, List.cons_append, hf, beq_self_eq_true, if_true]
  case script hp hf h =>
    have ⟨first, hw, hn⟩ := hf.words_eq hp
    simp only [List.flatMap_cons, hw, List.cons_append, beq_false_of_ne hn, Bool.false_eq_true,
      if_false, namedIn_append_iff, namedIn_words_iff h]
    tauto

theorem fragments_eq_nil (h : IsLine script arguments pieces)
    (hs : ∀ path ∈ script, path.any isBlank = false)
    (ha : ∀ a ∈ arguments, ∀ value ∈ a.value, value.any isBlank = false) :
    pieces.flatMap fragments = [] := by
  cases h
  case options h => exact VersionReport.fragments_eq_nil h ha
  case script hf h =>
    rw [List.flatMap_cons, fragments_of_no_blank (hf.no_blank (hs _ rfl)),
      VersionReport.fragments_eq_nil h ha, List.append_nil]

end IsLine

-- All options are found by their names. A name that belongs to none of them comes from a fragment of
-- a text with blanks, and there is no fragment where no text has blanks.
theorem names_options {lead : Chars} (hl : lead.all isBlank = true)
    (h : IsLine script arguments pieces) :
    let names := (options (lead ++ join [' '] pieces)).names
    let strays := pieces.flatMap fragments
    (∀ name, name ∈ names ↔ name ∈ arguments.map (·.name) ∨ NamedIn strays name) ∧
    ((∀ name, name ∈ names ↔ name ∈ arguments.map (·.name)) ↔
      ∀ name, NamedIn strays name → name ∈ arguments.map (·.name)) ∧
    ((∀ path ∈ script, path.any isBlank = false) →
      (∀ a ∈ arguments, ∀ value ∈ a.value, value.any isBlank = false) → strays = []) := by
  intro names strays
  have hnames (name : String) : name ∈ names ↔
      name ∈ arguments.map (·.name) ∨ NamedIn strays name := by
    rw [← h.namedIn_optionWords_iff (List.all_eq_true.mp hl)]
    simp only [names, options, Table.mem_names_ofPairs_iff, List.mem_filterMap, NamedIn,
      ← option?_eq_some_iff]
    tauto
  refine ⟨hnames, ?_, h.fragments_eq_nil⟩
  simp only [hnames, or_iff_left_iff_imp]

theorem names_options_quoted :
    let arguments : List Argument :=
      [⟨"prefix", some "/usr".toList⟩, ⟨"enable-c99", none⟩,
        ⟨"with-pkgversion", some "x --prefix=/y 12".toList⟩]
    let pieces := ["'a b/configure'", "--prefix=/usr", "--enable-c99",
      "--with-pkgversion='x --prefix=/y 12'"].map String.toList
    let line := [' '] ++ join [' '] pieces
    IsLine (some "a b/configure".toList) arguments pieces ∧
      (options line).names = ["b/configure'", "prefix", "enable-c99", "with-pkgversion", "12'"] ∧
      (options line).get? "prefix" = some (some "/y") ∧
      NamedIn (pieces.flatMap fragments) "12'" ∧
      ¬∀ name, name ∈ (options line).names ↔ name ∈ arguments.map (·.name) := by
  intro arguments pieces line
  have hw : List.Forall₂ IsWriting arguments pieces.tail :=
    .cons (.valued (by decide) (.plain (by decide))) <| .cons (.bare (by decide)) <|
      .cons (.valued (by decide) (.quoted _)) .nil
  have hl : IsLine (some "a b/configure".toList) arguments pieces :=
    .script (by decide) (.quoted _) hw
  have hb : [' '].all isBlank = true := by decide
  have ⟨hn, hs, _⟩ := names_options hb hl
  have hf : (options line).names =
      ["b/configure'", "prefix", "enable-c99", "with-pkgversion", "12'"] := by
    decide
  have hp : (options line).get? "prefix" = some (some "/y") := by decide
  have hm : "12'" ∈ (options line).names := by
    rw [hf]
    decide
  have ha : "12'" ∉ arguments.map (·.name) := by decide
  have hi := (hn "12'").mp hm |>.resolve_left ha
  exact ⟨hl, hf, hp, hi, fun h => ha (hs.mp h _ hi)⟩

end SourceFlags.VersionReport
