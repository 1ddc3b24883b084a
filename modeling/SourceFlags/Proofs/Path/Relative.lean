import SourceFlags.Proofs.Path.Normal

namespace SourceFlags.Path

open Text

variable {p q : Path} {cs ds : Chars}

theorem leadOf_append (h : cs.getLast?.all (· == '/') = true → ds.head? ≠ some '/') :
    leadOf (cs ++ ds) = leadOf cs := by
  rcases cs with _ | ⟨c, _ | ⟨d, _ | ⟨e, cs⟩⟩⟩
  case nil => exact (leadOf_eq_zero_iff ds).mpr (h rfl)
  case cons.nil =>
    by_cases hc : c = '/' <;> rcases ds with _ | ⟨f, ds⟩ <;> simp_all [leadOf]
  case cons.cons.nil =>
    by_cases hc : c = '/' <;> by_cases hd : d = '/' <;> rcases ds with _ | ⟨f, ds⟩ <;>
      simp_all [leadOf]
  case cons.cons.cons =>
    by_cases hc : c = '/' <;> by_cases hd : d = '/' <;> by_cases he : e = '/' <;> simp_all [leadOf]

theorem filter_names_slash (cs : Chars) :
    (splitOn '/' (cs ++ ['/'])).filter names = (splitOn '/' cs).filter names := by
  have hn : names [] = false := rfl
  rw [splitOn_append_sep, List.filter_append]
  simp [splitOn, splitWhere, hn]

theorem filter_names_append (h : cs.getLast?.all (· == '/') = true) :
    (splitOn '/' (cs ++ ds)).filter names =
      (splitOn '/' cs).filter names ++ (splitOn '/' ds).filter names := by
  rcases List.eq_nil_or_concat cs with rfl | ⟨cs, c, rfl⟩
  case inl => rfl
  case inr =>
    rw [List.concat_eq_append] at h ⊢
    have hc : c = '/' := by simpa using h
    rw [hc, filter_names_slash, List.append_assoc, List.singleton_append, splitOn_append_sep,
      List.filter_append]

theorem ofText_joinText (a s : String) : ofText (joinText a s) = (ofText a).append s := by
  by_cases hs : isAbsolute s = true
  case pos =>
    have hl : (ofText s).lead ≠ 0 := fun hl => by simp [(lead_ofText_eq_zero_iff s).mp hl] at hs
    simp only [joinText, if_pos hs, append, if_neg hl]
  case neg =>
    have hl : (ofText s).lead = 0 := (lead_ofText_eq_zero_iff s).mpr (Bool.eq_false_iff.mpr hs)
    have hh : s.toList.head? ≠ some '/' := by simpa [isAbsolute] using hs
    simp only [joinText, if_neg hs, append, if_pos hl]
    split
    case isTrue ha =>
      simp only [ofText, ofChars, String.toList_append, leadOf_append fun _ => hh,
        filter_names_append ha]
    case isFalse ha =>
      have hl : leadOf (a.toList ++ ['/']) = leadOf a.toList := leadOf_append fun hc => absurd hc ha
      have he : (a.toList ++ ['/']).getLast?.all (· == '/') = true := by simp
      have hf := @filter_names_append _ s.toList he
      have hd : leadOf (a.toList ++ ['/'] ++ s.toList) = leadOf a.toList :=
        (leadOf_append fun _ => hh).trans hl
      have hs : "/".toList = ['/'] := rfl
      rw [filter_names_slash] at hf
      simp only [ofText, ofChars, String.toList_append, hs, hf, hd]

theorem afterCommon_spec (as bs : List Part) :
    ∃ common, as = common ++ (afterCommon as bs).1 ∧ bs = common ++ (afterCommon as bs).2 := by
  induction as, bs using afterCommon.induct
  case case1 as b bs hi =>
    have ⟨common, ha, hb⟩ := hi
    rw [afterCommon, if_pos rfl]
    exact ⟨b :: common, congrArg (b :: ·) ha, congrArg (b :: ·) hb⟩
  case case2 a as b bs hn =>
    rw [afterCommon, if_neg hn]
    exact ⟨[], rfl, rfl⟩
  case case3 as bs hn =>
    rw [afterCommon]
    case x_2 => exact hn
    exact ⟨[], rfl, rfl⟩

theorem afterCommon_self (as : List Part) : afterCommon as as = ([], []) := by
  induction as
  case nil          => rfl
  case cons a as hi => rw [afterCommon, if_pos rfl, hi]

theorem foldl_push_ups {rooted : Bool} {as stack : List Part} (h : up ∉ as) :
    (List.replicate as.length up).foldl (push rooted) (as ++ stack) = stack := by
  induction as
  case nil => rfl
  case cons a as hi =>
    have ⟨ha, has⟩ := List.ne_and_not_mem_of_not_mem_cons h
    have hp : push rooted (a :: as ++ stack) up = as ++ stack := by simp [push, Ne.symm ha]
    rw [List.length_cons, List.replicate_succ, List.foldl_cons, hp, hi has]

theorem relative_lead (p q : Path) : (relative p q).lead = 0 :=
  rfl

theorem relative_clean (hq : q.Clean) (p : Path) : (relative p q).Clean where
  lead_le := Nat.zero_le 2
  parts   := by
    intro a ha
    have ⟨_, _, hb⟩ := afterCommon_spec p.parts q.parts
    cases List.mem_append.mp ha
    case inl ha => exact List.eq_of_mem_replicate ha ▸ .up
    case inr ha => exact hq.parts a <| hb ▸ List.mem_append_right _ ha

theorem relative_parts_eq_nil_iff : (relative p q).parts = [] ↔ p.parts = q.parts := by
  constructor
  case mp =>
    intro h
    have ⟨common, hp, hq⟩ := afterCommon_spec p.parts q.parts
    have ⟨hb, hf⟩ := List.append_eq_nil_iff.mp h
    rw [List.eq_nil_of_length_eq_zero ((List.replicate_eq_nil_iff _).mp hb)] at hp
    rw [hp, hq, hf]
  case mpr =>
    intro h
    simp only [relative, h, afterCommon_self]
    rfl

-- The way to a directory leads to it.
theorem foldl_push_relative (hp : p.Settled) (hq : q.Settled) :
    (p.parts ++ (relative p q).parts).foldl (push true) [] = q.parts.reverse := by
  have ⟨common, hback, hforth⟩ := afterCommon_spec p.parts q.parts
  generalize hc : afterCommon p.parts q.parts = ways at hback hforth
  obtain ⟨back, forth⟩ := ways
  have hb : up ∉ back.reverse := fun hu =>
    hp.no_up <| hback ▸ List.mem_append_right _ (List.mem_reverse.mp hu)
  have hf : up ∉ forth := fun hu => hq.no_up <| hforth ▸ List.mem_append_right _ hu
  have hr : (relative p q).parts = List.replicate back.reverse.length up ++ forth := by
    simp only [relative, hc, List.length_reverse]
  dsimp only at hback hforth
  rw [hr, List.foldl_append, List.foldl_append, foldl_push_of_no_up hp.no_up, List.append_nil,
    hback, List.reverse_append, foldl_push_ups hb, foldl_push_of_no_up hf, hforth,
    List.reverse_append]

theorem normalText_relative {s : String} (hp : p.Settled) (hq : q.Settled) (hl : p.lead = q.lead)
    {place : String} (h : ofText place = relative p q) :
    normalText (joinText (joinText p.text place) s) = normalText (joinText q.text s) := by
  have hr : p.append place = ⟨p.lead, p.parts ++ (relative p q).parts⟩ := by
    rw [append, h, if_pos (relative_lead p q)]
  have hb : (p.lead != 0) = true := bne_iff_ne.mpr hp.rooted
  simp only [normalText, ofText_joinText, ofText_text hp.toClean, ofText_text hq.toClean, hr]
  by_cases hs : (ofText s).lead = 0
  case neg => simp only [append, if_neg hs]
  case pos =>
    have hd := foldl_push_relative hp hq
    have hn : q.parts.foldl (push true) [] = q.parts.reverse := by
      rw [foldl_push_of_no_up hq.no_up, List.append_nil]
    simp only [append, if_pos hs, normal, ← hl, hb, List.foldl_append (l := q.parts), hn,
      List.foldl_append (l := p.parts ++ _), hd]

end SourceFlags.Path
