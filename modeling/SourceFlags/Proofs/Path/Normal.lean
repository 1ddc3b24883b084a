import SourceFlags.Path.Basic
import SourceFlags.Proofs.Text.Split

namespace SourceFlags.Path

open Text

structure IsPart (a : Part) : Prop where
  names    : Path.names a = true
  no_slash : '/' ∉ a

structure Clean (p : Path) : Prop where
  lead_le : p.lead ≤ 2
  parts   : ∀ a ∈ p.parts, IsPart a

theorem IsPart.ne_nil {a : Part} (h : IsPart a) : a ≠ [] := by
  rintro rfl
  exact absurd h.names (by decide)

theorem IsPart.up : IsPart up := ⟨by decide, by decide⟩

theorem leadOf_le (cs : Chars) : leadOf cs ≤ 2 := by
  unfold leadOf
  split <;> omega

theorem leadOf_eq_zero_iff (cs : Chars) : leadOf cs = 0 ↔ cs.head? ≠ some '/' := by
  unfold leadOf
  split
  case h_4 h => cases cs <;> simp_all
  all_goals simp

theorem leadOf_replicate {n : Nat} {cs : Chars} (hn : n ≤ 2) (h : cs.head? ≠ some '/') :
    leadOf (List.replicate n '/' ++ cs) = n := by
  match n with
  | 0 => simpa [leadOf_eq_zero_iff] using h
  | 1 => cases cs <;> simp_all [leadOf]
  | 2 => cases cs <;> simp_all [leadOf]

theorem ofChars_clean (cs : Chars) : (ofChars cs).Clean where
  lead_le := leadOf_le cs
  parts _ h :=
    have ⟨hm, hn⟩ := List.mem_filter.mp h
    ⟨hn, not_mem_of_mem_splitOn hm⟩

theorem splitOn_replicate (n : Nat) (cs : Chars) :
    splitOn '/' (List.replicate n '/' ++ cs) = List.replicate n [] ++ splitOn '/' cs := by
  induction n
  case zero      => rfl
  case succ n hi => simp [List.replicate_succ, splitOn_cons_sep, hi]

theorem head_join_ne {as : List Part} (h : ∀ a ∈ as, IsPart a) :
    (join ['/'] as).head? ≠ some '/' := by
  cases as
  case nil => simp [join]
  case cons a as =>
    have ha := h a List.mem_cons_self
    cases a
    case nil => exact absurd rfl ha.ne_nil
    case cons c cs =>
      have hc : c ≠ '/' := (List.ne_and_not_mem_of_not_mem_cons ha.no_slash).left.symm
      cases as <;> simpa [join] using hc

theorem filter_names_join {as : List Part} (h : ∀ a ∈ as, IsPart a) :
    (splitOn '/' (join ['/'] as)).filter names = as := by
  by_cases ha : as = []
  case pos => subst ha; rfl
  case neg =>
    rw [splitOn_join (fun a hm => (h a hm).no_slash) ha]
    exact List.filter_eq_self.mpr fun a hm => (h a hm).names

variable {p : Path}

theorem ofChars_chars (h : p.Clean) : ofChars p.chars = p := by
  let body := List.replicate p.lead '/' ++ join ['/'] p.parts
  have hb : ofChars body = p := by
    have hl := leadOf_replicate h.lead_le (head_join_ne h.parts)
    have hf : (splitOn '/' body).filter names = p.parts := by
      rw [splitOn_replicate, List.filter_append, filter_names_join h.parts]
      simp [names]
    simp only [ofChars, hf]
    ext1 <;> simp [hl, body]
  simp only [chars]
  split
  case isTrue he  => exact (List.isEmpty_iff.mp he ▸ hb : ofChars [] = p) ▸ rfl
  case isFalse he => exact hb

theorem ofText_text (h : p.Clean) : ofText p.text = p := by
  simp [ofText, text, ofChars_chars h]

theorem push_parts {rooted : Bool} {as : List Part} {a : Part} (h : ∀ b ∈ as, IsPart b)
    (ha : IsPart a) : ∀ b ∈ push rooted as a, IsPart b := by
  intro b hb
  simp only [push] at hb
  split at hb
  case isFalse => exact (List.mem_cons.mp hb).elim (· ▸ ha) (h b)
  case isTrue hu =>
    split at hb
    case h_1 => split at hb <;> simp_all
    case h_2 =>
      split at hb
      case isTrue  => exact (List.mem_cons.mp hb).elim (· ▸ IsPart.up) (h b)
      case isFalse => exact h b (List.mem_cons_of_mem _ hb)

theorem push_no_up {as : List Part} {a : Part} (h : up ∉ as) : up ∉ push true as a := by
  simp only [push]
  split
  case isFalse ha => exact List.not_mem_cons_of_ne_of_not_mem (Ne.symm ha) h
  case isTrue =>
    split
    case h_1 => simp
    case h_2 top rest =>
      have ⟨ht, hr⟩ := List.ne_and_not_mem_of_not_mem_cons h
      simpa [Ne.symm ht] using hr

theorem foldl_push_of_no_up {rooted : Bool} {as stack : List Part} (h : up ∉ as) :
    as.foldl (push rooted) stack = as.reverse ++ stack := by
  induction as generalizing stack
  case nil => rfl
  case cons a as hi =>
    have ⟨ha, has⟩ := List.ne_and_not_mem_of_not_mem_cons h
    simp [hi has, push, Ne.symm ha]

theorem normal_clean (h : p.Clean) : p.normal.Clean where
  lead_le := h.lead_le
  parts := by
    simp only [normal, List.mem_reverse]
    let Good := fun stack : List Part => ∀ b ∈ stack, IsPart b
    exact List.foldlRecOn (motive := Good) _ _ (by simp [Good]) fun _ hs a ha =>
      push_parts hs (h.parts a ha)

-- An absolute path that says nothing but names.
structure Settled (p : Path) : Prop extends Clean p where
  rooted : p.lead ≠ 0
  no_up  : up ∉ p.parts

theorem normal_settled (h : p.Clean) (hr : p.lead ≠ 0) : p.normal.Settled where
  toClean := normal_clean h
  rooted  := hr
  no_up   := by
    simp only [normal, List.mem_reverse, bne_iff_ne.mpr hr]
    exact List.foldlRecOn (motive := (up ∉ ·)) _ _ List.not_mem_nil fun _ hs _ _ => push_no_up hs

theorem Settled.normal_eq (h : p.Settled) : p.normal = p := by
  simp [normal, foldl_push_of_no_up h.no_up]

variable {cwd s : String}

theorem lead_ofText_eq_zero_iff (s : String) : (ofText s).lead = 0 ↔ isAbsolute s = false := by
  simp [ofText, ofChars, isAbsolute, leadOf_eq_zero_iff]

theorem isAbsolute_joinText (h : isAbsolute cwd = true) (s : String) :
    isAbsolute (joinText cwd s) = true := by
  simp only [joinText]
  split
  case isTrue hs => exact hs
  case isFalse =>
    simp only [isAbsolute, beq_iff_eq] at h ⊢
    split <;> simp [h, List.head?_append]

theorem absolute_settled (h : isAbsolute cwd = true) (s : String) : (absolute cwd s).Settled := by
  refine normal_settled (ofChars_clean _) fun hc => ?_
  have ha := isAbsolute_joinText h s
  rw [(lead_ofText_eq_zero_iff _).mp hc] at ha
  contradiction

theorem Clean.isAbsolute_text (h : p.Clean) (hr : p.lead ≠ 0) : isAbsolute p.text = true := by
  rw [← Bool.not_eq_false]
  intro hc
  have hl := (lead_ofText_eq_zero_iff p.text).mpr hc
  exact hr <| ofText_text h ▸ hl

theorem Settled.isAbsolute_text (h : p.Settled) : isAbsolute p.text = true :=
  h.toClean.isAbsolute_text h.rooted

theorem Settled.absolute_text (h : p.Settled) (cwd : String) : absolute cwd p.text = p := by
  simp only [absolute, joinText, h.isAbsolute_text, if_true, ofText_text h.toClean, h.normal_eq]

theorem append_of_isPart (p : Path) {name : String} (h : IsPart name.toList) :
    p.append name = p.child name.toList := by
  have hs : splitOn '/' name.toList = [name.toList] := splitOn_of_not_mem h.no_slash
  have hl : leadOf name.toList = 0 :=
    (leadOf_eq_zero_iff _).mpr fun hc => h.no_slash <| List.mem_of_head? hc
  simp [append, ofText, ofChars, hs, hl, h.names, child]

theorem append_clean (h : p.Clean) (s : String) : (p.append s).Clean := by
  have hs : (ofText s).Clean := ofChars_clean s.toList
  by_cases hl : (ofText s).lead = 0
  case neg => simpa only [append, if_neg hl] using hs
  case pos =>
    simp only [append, if_pos hl]
    exact ⟨h.lead_le, List.forall_mem_append.mpr ⟨h.parts, hs.parts⟩⟩

theorem append_lead_ne (h : p.lead ≠ 0) (s : String) : (p.append s).lead ≠ 0 := by
  by_cases hl : (ofText s).lead = 0
  case neg => simpa only [append, if_neg hl] using hl
  case pos => simpa only [append, if_pos hl] using h

end SourceFlags.Path
