import SourceFlags.Automake.Expansion
import SourceFlags.Proofs.Text.Word

namespace SourceFlags.Automake

open Text

-- A name between brackets may have digits in it, one between signs may not.
inductive IsReference : (name written : Chars) → Prop
  | parentheses {name : Chars} (h : isWord isWordFirst isWordPart name = true) :
      IsReference name ('$' :: '(' :: name ++ [')'])
  | braces {name : Chars} (h : isWord isWordFirst isWordPart name = true) :
      IsReference name ('$' :: '\x7b' :: name ++ ['\x7d'])
  | signs {name : Chars} (h : isWord isWordFirst isWordFirst name = true) :
      IsReference name ('@' :: name ++ ['@'])

inductive Reads : Chars → List Piece → Prop
  | nil : Reads [] []
  | char {c : Char} {cs : Chars} {ps : List Piece}
      (hn : ∀ name written, IsReference name written → ¬written <+: c :: cs) (h : Reads cs ps) :
      Reads (c :: cs) (.char c :: ps)
  | reference {name written cs : Chars} {ps : List Piece} (hr : IsReference name written)
      (h : Reads cs ps) : Reads (written ++ cs) (.reference (String.ofList name) :: ps)

variable {isFirst isPart : Char → Bool} {close c : Char} {name written cs : Chars}
  {ps : List Piece}

theorem closed?_eq_some_iff (hc : isPart close = false) :
    closed? isFirst isPart close cs = some name ↔
      isWord isFirst isPart name = true ∧ name ++ [close] <+: cs := by
  cases cs
  case nil => simp [closed?]
  case cons c cs =>
    simp only [closed?, Option.ite_none_right_eq_some, Option.some_inj, Bool.and_eq_true,
      beq_iff_eq]
    constructor
    case mp =>
      rintro ⟨⟨hf, hd⟩, rfl⟩
      refine ⟨isWord_iff.mpr ⟨c, _, rfl, hf, fun _ => List.mem_takeWhile_imp⟩, ?_⟩
      have ⟨rest, hr⟩ := List.head?_eq_some_iff.mp hd
      refine ⟨rest, ?_⟩
      conv => rhs; rw [← List.takeWhile_append_dropWhile (p := isPart) (l := cs), hr]
      simp
    case mpr =>
      rintro ⟨hw, rest, hr⟩
      obtain ⟨d, ds, rfl, hf, hp⟩ := isWord_iff.mp hw
      obtain ⟨rfl, rfl⟩ : d = c ∧ ds ++ close :: rest = cs := by simpa using hr
      simp [hf, hc, List.takeWhile_append_of_pos hp, List.dropWhile_append_of_pos hp]

theorem reference?_eq_some_iff {n : Nat} : reference? cs = some (name, n) ↔
    ∃ written, IsReference name written ∧ written.length = n ∧ written <+: cs := by
  constructor
  case mp =>
    have hc {isPart k cs} (close : Char) (hn : isPart close = false)
        (h : (closed? isWordFirst isPart close cs).map (fun m => (m, m.length + k)) =
          some (name, n)) :
        isWord isWordFirst isPart name = true ∧ name.length + k = n ∧ name ++ [close] <+: cs := by
      obtain ⟨_, hs, ⟨⟩⟩ := Option.map_eq_some_iff.mp h
      have ⟨hw, hp⟩ := (closed?_eq_some_iff hn).mp hs
      exact ⟨hw, rfl, hp⟩
    intro h
    unfold reference? at h
    split at h
    case h_1 cs =>
      have ⟨hw, hl, hp⟩ := hc ')' (by decide) h
      exact ⟨_, .parentheses hw, by simp [← hl], by simpa using hp⟩
    case h_2 cs =>
      have ⟨hw, hl, hp⟩ := hc '\x7d' (by decide) h
      exact ⟨_, .braces hw, by simp [← hl], by simpa using hp⟩
    case h_3 cs =>
      have ⟨hw, hl, hp⟩ := hc '@' (by decide) h
      exact ⟨_, .signs hw, by simp [← hl], by simpa using hp⟩
    case h_4 => contradiction
  case mpr =>
    rintro ⟨_, hr, rfl, rest, rfl⟩
    have hc {isPart} (close : Char) (hn : isPart close = false)
        (hw : isWord isWordFirst isPart name = true) :
        closed? isWordFirst isPart close (name ++ close :: rest) = some name :=
      (closed?_eq_some_iff hn).mpr ⟨hw, rest, by simp⟩
    cases hr
    case parentheses hw => simp [reference?, hc ')' (by decide) hw]
    case braces hw      => simp [reference?, hc '\x7d' (by decide) hw]
    case signs hw       => simp [reference?, hc '@' (by decide) hw]

theorem IsReference.ne_nil (h : IsReference name written) : written ≠ [] := by
  cases h <;> simp

theorem piecesAfter_append (cs ds : Chars) : piecesAfter cs.length (cs ++ ds) = pieces ds := by
  induction cs
  case nil       => rfl
  case cons _ hi => exact hi

theorem pieces_reference (h : IsReference name written) (cs : Chars) :
    pieces (written ++ cs) = .reference (String.ofList name) :: pieces cs := by
  have hr := reference?_eq_some_iff.mpr ⟨written, h, rfl, List.prefix_append written cs⟩
  have ⟨c, ds, hc⟩ := List.exists_cons_of_ne_nil h.ne_nil
  subst hc
  rw [List.cons_append] at hr ⊢
  simp only [pieces, piecesAfter, hr, List.length_cons, Nat.add_sub_cancel]
  rw [piecesAfter_append, pieces]

theorem pieces_char (h : ∀ name written, IsReference name written → ¬written <+: c :: cs) :
    pieces (c :: cs) = .char c :: pieces cs := by
  have hr : reference? (c :: cs) = none := Option.eq_none_iff_forall_ne_some.mpr fun _ hs =>
    have ⟨written, hw, _, hp⟩ := reference?_eq_some_iff.mp hs
    h _ written hw hp
  simp only [pieces, piecesAfter, hr]

theorem Reads.pieces_eq (h : Reads cs ps) : pieces cs = ps := by
  induction h
  case nil               => rfl
  case char hn _ hi      => rw [pieces_char hn, hi]
  case reference hr _ hi => rw [pieces_reference hr, hi]

theorem reads_pieces (cs : Chars) : Reads cs (pieces cs) := by
  -- By the length of the text: a reference and a character alike leave less of it.
  induction hn : cs.length using Nat.strongRecOn generalizing cs
  case ind n hi =>
    subst hn
    cases cs
    case nil => exact .nil
    case cons c cs =>
      by_cases h : ∃ name written, IsReference name written ∧ written <+: c :: cs
      case pos =>
        have ⟨name, written, hr, rest, he⟩ := h
        have hl : rest.length < (c :: cs).length := by
          have := List.length_pos_iff.mpr hr.ne_nil
          rw [← he, List.length_append]
          omega
        rw [← he, pieces_reference hr]
        exact .reference hr (hi rest.length hl rest rfl)
      case neg =>
        have hn : ∀ name written, IsReference name written → ¬written <+: c :: cs :=
          fun name written hr hp => h ⟨name, written, hr, hp⟩
        rw [pieces_char hn]
        exact .char hn (hi cs.length (Nat.lt_succ_self _) cs rfl)

end SourceFlags.Automake
