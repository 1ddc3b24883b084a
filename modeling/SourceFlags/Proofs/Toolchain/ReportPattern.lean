import SourceFlags.Proofs.Text.Trim
import SourceFlags.Proofs.Text.Word
import SourceFlags.Toolchain.VersionReport

namespace SourceFlags.VersionReport

open Text

inductive IsLabelled (label : Chars) : (text word : Chars) → Prop
  | intro {gap word rest : Chars} (hg : gap ≠ []) (hb : gap.all isBlank = true) (hn : word ≠ [])
      (hw : word.any isBlank = false) (hr : rest.head?.all isBlank = true) :
      IsLabelled label (label ++ gap ++ word ++ rest) word

inductive IsTitled (label : Chars) : (text value : Chars) → Prop
  | intro {gap value blanks : Chars} (hg : gap ≠ []) (hb : gap.all isBlank = true)
      (hf : value.head?.any (!isBlank ·) = true) (hl : value.getLast?.any (!isBlank ·) = true)
      (he : blanks.all isBlank = true) : IsTitled label (label ++ gap ++ value ++ blanks) value
  | blank {gap : Chars} {c : Char} (hg : gap ≠ []) (hb : gap.all isBlank = true)
      (hc : isBlank c = true) : IsTitled label (label ++ gap ++ [c]) [c]

def FoundFirst (Here : (before after value : Chars) → Prop) (line value : Chars) : Prop :=
  ∃ before after, line = before ++ after ∧ Here before after value ∧
    ∀ before' after' value', line = before' ++ after' → Here before' after' value' →
      before.length ≤ before'.length

-- The version after a compiler's name, where the name does not go on from a word before it.
def IsVersion (afterWord : Bool) (before after word : Chars) : Prop :=
  before.getLast?.elim afterWord isWordChar = false ∧ ∃ label ∈ versionLabels,
    IsLabelled label after word

variable {Here : (before after value : Chars) → Prop} {needle label line rest value gap : Chars}
  {c : Char} {cs : Chars} {s : String}

theorem foundFirst_nil_iff : FoundFirst Here [] value ↔ Here [] [] value := by
  constructor
  case mp =>
    rintro ⟨before, after, he, h, _⟩
    obtain ⟨rfl, rfl⟩ := List.append_eq_nil_iff.mp he.symm
    exact h
  case mpr => exact fun h => ⟨[], [], rfl, h, fun _ _ _ _ _ => Nat.zero_le _⟩

theorem foundFirst_cons_iff : FoundFirst Here (c :: cs) value ↔
    Here [] (c :: cs) value ∨
      (∀ value', ¬Here [] (c :: cs) value') ∧
        FoundFirst (fun before => Here (c :: before)) cs value := by
  constructor
  case mp =>
    rintro ⟨before, after, he, h, hfirst⟩
    cases before
    case nil => exact .inl <| (he : c :: cs = after) ▸ h
    case cons d before =>
      obtain ⟨rfl, rfl⟩ := List.cons.inj he
      refine .inr ⟨fun value' h' => ?_, before, after, rfl, h, fun before' after' v he h' => ?_⟩
      · exact absurd (hfirst [] _ value' rfl h') (Nat.not_succ_le_zero _)
      · exact Nat.le_of_succ_le_succ <| hfirst (c :: before') after' v (congrArg (c :: ·) he) h'
  case mpr =>
    rintro (h | ⟨hn, before, after, rfl, h, hfirst⟩)
    case inl => exact ⟨[], _, rfl, h, fun _ _ _ _ _ => Nat.zero_le _⟩
    case inr =>
      refine ⟨c :: before, after, rfl, h, fun before' after' value' he h' => ?_⟩
      cases before'
      case nil => exact absurd ((he : c :: (before ++ after) = after') ▸ h') (hn value')
      case cons d before' =>
        have ⟨hd, he⟩ := List.cons.inj he
        exact Nat.succ_le_succ <| hfirst before' after' value' he (hd ▸ h')

theorem afterFirst?_eq_some_iff (hn : needle ≠ []) : afterFirst? needle line = some rest ↔
    FoundFirst (fun _ after value => after = needle ++ value) line rest := by
  induction line
  case nil => simp [foundFirst_nil_iff, afterFirst?, hn]
  case cons c cs hi =>
    rw [foundFirst_cons_iff, ← hi, afterFirst?]
    cases ha : after? needle (c :: cs)
    case some rest' =>
      have he := after?_eq_some_iff.mp ha
      simp [he, eq_comm]
    case none =>
      have he : ∀ value, c :: cs ≠ needle ++ value := fun value he => by
        simp [after?_eq_some_iff.mpr he] at ha
      simp [he]

theorem exists_gap (h : rest.head?.all (!isBlank ·) = false) :
    ∃ gap, gap ≠ [] ∧ gap.all isBlank = true ∧ rest = gap ++ trimStart rest := by
  refine ⟨rest.takeWhile isBlank, ?_, List.all_takeWhile, List.takeWhile_append_dropWhile.symm⟩
  cases rest
  case nil  => contradiction
  case cons => simp_all

theorem trimStart_gap (hg : gap ≠ []) (hb : gap.all isBlank = true)
    (hf : cs.head?.all (!isBlank ·) = true) :
    (gap ++ cs).head?.all (!isBlank ·) = false ∧ trimStart (gap ++ cs) = cs := by
  have hb := List.all_eq_true.mp hb
  refine ⟨?_, (takeWhile_append_of_head? hb hf).right⟩
  cases gap
  case nil  => contradiction
  case cons => simp [hb _ List.mem_cons_self]

theorem IsLabelled.labelled? (h : IsLabelled label line value) :
    labelled? label line = some (String.ofList value) := by
  cases h
  case intro gap rest hg hb hr hn hw =>
    have hw : ∀ c ∈ value, (!isBlank c) = true := by simpa using hw
    have ht : (value ++ rest).takeWhile (!isBlank ·) = value :=
      (takeWhile_append_of_head? hw (by simpa using hr)).left
    have hf : (value ++ rest).head?.all (!isBlank ·) = true := by
      cases value
      case nil  => contradiction
      case cons => simpa using hw _ List.mem_cons_self
    have ⟨hg, hs⟩ := trimStart_gap hg hb hf
    have ha : after? label (label ++ gap ++ value ++ rest) = some (gap ++ (value ++ rest)) :=
      after?_eq_some_iff.mpr (by simp)
    simp only [VersionReport.labelled?, ha, hg, hs, ht]
    simp [hn]

theorem labelled?_eq_some_iff : labelled? label line = some s ↔ IsLabelled label line s.toList := by
  constructor
  case mp =>
    intro h
    simp only [labelled?] at h
    split at h
    case h_1 => contradiction
    case h_2 rest ha =>
      obtain ⟨hn, rfl⟩ := Option.ite_none_left_eq_some.mp h |>.imp_right Option.some.inj
      have ⟨hf, hv⟩ := Bool.or_eq_false_iff.mp (Bool.eq_false_iff.mpr hn)
      have ⟨gap, hg, hb, hr⟩ := exists_gap hf
      have ht := List.takeWhile_append_dropWhile (p := (!isBlank ·)) (l := trimStart rest)
      have hd := all_head?_dropWhile (!isBlank ·) (trimStart rest)
      have hw : ((trimStart rest).takeWhile (!isBlank ·)).any isBlank = false := by
        simpa using fun c hc => List.mem_takeWhile_imp (p := (!isBlank ·)) hc
      have he : line = label ++ gap ++ (trimStart rest).takeWhile (!isBlank ·) ++
          (trimStart rest).dropWhile (!isBlank ·) := by
        rw [List.append_assoc, ht, List.append_assoc, ← hr]
        exact after?_eq_some_iff.mp ha
      rw [String.toList_ofList]
      exact he ▸ .intro hg hb (by simpa using hv) hw (by simpa using hd)
  case mpr => exact fun h => by simpa using h.labelled?

theorem versionLabels_disjoint : ∀ l ∈ versionLabels, ∀ l' ∈ versionLabels, l <+: l' → l = l' := by
  decide

theorem IsLabelled.begins_with_label (h : IsLabelled label line value) : label <+: line := by
  cases h
  simp only [List.append_assoc]
  exact List.prefix_append ..

theorem findSome?_versionLabels : versionLabels.findSome? (labelled? · line) = some s ↔
    ∃ label ∈ versionLabels, IsLabelled label line s.toList := by
  constructor
  case mp =>
    intro h
    have ⟨label, hm, hl⟩ := List.exists_of_findSome?_eq_some h
    exact ⟨label, hm, labelled?_eq_some_iff.mp hl⟩
  case mpr =>
    rintro ⟨label, hm, hl⟩
    have hi : (versionLabels.findSome? (labelled? · line)).isSome := by
      rw [List.findSome?_isSome_iff]
      exact ⟨label, hm, by simp [hl.labelled?]⟩
    have ⟨s', hs⟩ := Option.isSome_iff_exists.mp hi
    have ⟨label', hm', hl'⟩ := List.exists_of_findSome?_eq_some hs
    have hp := (labelled?_eq_some_iff.mp hl').begins_with_label
    have he : label' = label := by
      rcases List.prefix_or_prefix_of_prefix hp hl.begins_with_label with h | h
      · exact versionLabels_disjoint _ hm' _ hm h
      · exact (versionLabels_disjoint _ hm _ hm' h).symm
    rw [hs, ← hl', he, hl.labelled?, String.ofList_toList]

theorem isVersion_cons_iff {afterWord : Bool} {before after : Chars} :
    IsVersion afterWord (c :: before) after value ↔
      IsVersion (isWordChar c) before after value := by
  cases before
  case nil  => rfl
  case cons => simp [IsVersion, List.getLast?_cons]

theorem isVersion_nil_iff {afterWord : Bool} {after : Chars} : IsVersion afterWord [] after value ↔
    afterWord = false ∧
      versionLabels.findSome? (labelled? · after) = some (String.ofList value) := by
  rw [findSome?_versionLabels, String.toList_ofList]
  rfl

theorem versionFrom_eq_some_iff (afterWord : Bool) :
    versionFrom afterWord line = some s ↔ FoundFirst (IsVersion afterWord) line s.toList := by
  induction line generalizing afterWord
  case nil =>
    have hn : versionLabels.findSome? (labelled? · []) = none := by decide
    simp [foundFirst_nil_iff, isVersion_nil_iff, hn, versionFrom]
  case cons c cs hi =>
    have hh : (fun before => IsVersion afterWord (c :: before)) = IsVersion (isWordChar c) := by
      ext before after value
      exact isVersion_cons_iff
    rw [foundFirst_cons_iff, hh, ← hi, versionFrom]
    simp only [isVersion_nil_iff, String.ofList_toList]
    cases afterWord
    case true => simp
    case false =>
      cases versionLabels.findSome? (labelled? · (c :: cs))
      case none   => simp
      case some v => simpa using fun hn => absurd String.ofList_toList.symm (hn v.toList)

theorem trim_ends (h : trim cs ≠ []) :
    (trim cs).head?.any (!isBlank ·) = true ∧ (trim cs).getLast?.any (!isBlank ·) = true := by
  have hl : ¬isBlank ((trim cs).getLast h) = true :=
    List.rdropWhile_last_not isBlank (trimStart cs) h
  have hf := all_head?_dropWhile isBlank cs
  have hp : trim cs <+: cs.dropWhile isBlank := List.rdropWhile_prefix isBlank _
  constructor
  case left =>
    have ⟨tail, ht⟩ := hp
    rw [← ht] at hf
    cases hc : trim cs
    case nil  => contradiction
    case cons => simpa [hc] using hf
  case right =>
    rw [List.getLast?_eq_some_getLast h]
    simpa using hl

theorem IsTitled.rest? (h : IsTitled label line value) :
    rest? label line = some (String.ofList value) := by
  cases h
  case intro gap blanks hg hb he hf hl =>
    have hn : value ≠ [] := by
      rintro rfl
      contradiction
    have hv : (value ++ blanks).head?.all (!isBlank ·) = true := by
      cases value
      case nil  => contradiction
      case cons => simpa using hf
    have hl : value.getLast?.all (!isBlank ·) = true := by
      rw [List.getLast?_eq_some_getLast hn] at hl ⊢
      exact hl
    have ⟨hg, hs⟩ := trimStart_gap hg hb hv
    have ht : trim (gap ++ (value ++ blanks)) = value := by
      rw [trim, hs, trimEnd_append_of_blank (List.all_eq_true.mp he), trimEnd_of_getLast hl]
    have ha : after? label (label ++ gap ++ value ++ blanks) = some (gap ++ (value ++ blanks)) :=
      after?_eq_some_iff.mpr (by simp)
    simp only [VersionReport.rest?, ha, hg, ht]
    simp [hn]
  case blank gap c hg hb hc =>
    have hb : ∀ b ∈ gap ++ [c], isBlank b = true := by simpa [or_imp, forall_and, hc] using hb
    have ht : trim (gap ++ [c]) = [] := trim_append_of_blank hb []
    have ha : after? label (label ++ gap ++ [c]) = some (gap ++ [c]) :=
      after?_eq_some_iff.mpr (by simp)
    have hf : (gap ++ [c]).head?.all (!isBlank ·) = false := by
      cases gap
      case nil  => contradiction
      case cons => simpa using hb _ List.mem_cons_self
    have hl : ¬(gap ++ [c]).length < 2 := by
      have hp := List.length_pos_iff.mpr hg
      rw [List.length_append, List.length_singleton]
      omega
    have hd : (gap ++ [c]).drop ((gap ++ [c]).length - 1) = [c] := by simp
    simp only [VersionReport.rest?, ha, hf, ht, hd, if_neg hl]
    rfl

theorem isTitled_of_blanks (h : ∀ c ∈ rest, isBlank c = true) (hl : ¬rest.length < 2) :
    IsTitled label (label ++ rest) (rest.drop (rest.length - 1)) := by
  rcases List.eq_nil_or_concat rest with rfl | ⟨gap, c, rfl⟩
  case inl => simp at hl
  case inr =>
    rw [List.concat_eq_append] at h hl ⊢
    have ⟨hb, hc⟩ := List.forall_mem_append.mp h
    have hg : gap ≠ [] := by
      rintro rfl
      simp at hl
    have hd : (gap ++ [c]).drop ((gap ++ [c]).length - 1) = [c] := by simp
    rw [hd, ← List.append_assoc]
    exact .blank hg (List.all_eq_true.mpr hb) (hc c List.mem_cons_self)

theorem rest?_eq_some_iff : rest? label line = some s ↔ IsTitled label line s.toList := by
  constructor
  case mp =>
    intro h
    simp only [rest?] at h
    split at h
    case h_1 => contradiction
    case h_2 rest ha =>
      have ⟨hf, h⟩ := Option.ite_none_left_eq_some.mp h
      have ⟨gap, hg, hb, hr⟩ := exists_gap (Bool.eq_false_iff.mpr hf)
      have hb' := List.all_eq_true.mp hb
      rw [after?_eq_some_iff.mp ha]
      split at h
      case isTrue hn =>
        obtain rfl := Option.some.inj h
        have hn : trim rest ≠ [] := by simpa using hn
        have ⟨hf, ht⟩ := trim_ends hn
        have he : rest = gap ++ trim rest ++ (trimStart rest).rtakeWhile isBlank := by
          rw [List.append_assoc]
          exact hr.trans (congrArg (gap ++ ·) (List.rdropWhile_append_rtakeWhile ..).symm)
        have hs : ((trimStart rest).rtakeWhile isBlank).all isBlank = true :=
          List.all_eq_true.mpr fun c hc => List.mem_rtakeWhile_imp hc
        rw [String.toList_ofList]
        have hi : IsTitled label _ _ := .intro hg hb hf ht hs
        simpa only [List.append_assoc, ← he] using hi
      case isFalse hn =>
        have ⟨hl, h⟩ := Option.ite_none_left_eq_some.mp h
        obtain rfl := Option.some.inj h
        have hn : trim rest = [] := by simpa using hn
        have hs : ∀ c ∈ rest, isBlank c = true := by
          rw [hr]
          exact List.forall_mem_append.mpr ⟨hb', List.rdropWhile_eq_nil_iff.mp hn⟩
        rw [String.toList_ofList]
        exact isTitled_of_blanks hs hl
  case mpr => exact fun h => by simpa using h.rest?

end SourceFlags.VersionReport
