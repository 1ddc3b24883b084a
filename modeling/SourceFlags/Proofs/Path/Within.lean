import Mathlib.Data.List.Basic
import SourceFlags.Proofs.Path.Normal
import SourceFlags.Trust

namespace SourceFlags.Path

open Text

def root : Path := ⟨1, []⟩

def IsWithin (p d : Path) : Prop :=
  d = root ∨ d.lead = p.lead ∧ d.parts <+: p.parts

instance (p d : Path) : Decidable (p.IsWithin d) :=
  inferInstanceAs <| Decidable (d = root ∨ d.lead = p.lead ∧ d.parts <+: p.parts)

variable {p d : Path}

theorem Settled.chars_eq (h : p.Settled) :
    p.chars = List.replicate p.lead '/' ++ join ['/'] p.parts := by
  simp [chars, h.rooted]

theorem Settled.parts_eq_filter (h : p.Settled) : (splitOn '/' p.chars).filter names = p.parts :=
  congrArg Path.parts <| ofChars_chars h.toClean

theorem getLast_join_ne {as : List Part} (h : ∀ a ∈ as, IsPart a) :
    (join ['/'] as).getLast? ≠ some '/' := by
  induction as
  case nil => simp [join]
  case cons a as hi =>
    obtain ⟨ha, has⟩ := List.forall_mem_cons.mp h
    by_cases hn : as = []
    case pos =>
      intro hc
      rw [hn] at hc
      exact ha.no_slash <| List.mem_of_getLast? hc
    case neg =>
      have hj := join_ne_nil ['/'] (fun b hb => (has b hb).ne_nil) hn
      rw [join_cons _ a hn, List.getLast?_append_of_ne_nil _ hj]
      exact hi has

theorem Settled.getLast_chars_iff (h : p.Settled) :
    p.chars.getLast?.all (· == '/') = true ↔ p.parts = [] := by
  rw [h.chars_eq]
  by_cases hp : p.parts = []
  case pos =>
    have hl : List.replicate p.lead '/' ≠ [] := by simp [h.rooted]
    simp [hp, join, List.getLast?_eq_some_getLast hl]
  case neg =>
    have hj := join_ne_nil ['/'] (fun a ha => (h.parts a ha).ne_nil) hp
    have hn := getLast_join_ne h.parts
    rw [List.getLast?_append_of_ne_nil _ hj]
    simpa [hp, List.getLast?_eq_some_getLast hj] using hn

theorem Settled.joinText_empty (h : p.Settled) :
    (joinText p.text "").toList = if p.parts = [] then p.chars else p.chars ++ ['/'] := by
  have he : isAbsolute "" = false := rfl
  have hl := h.getLast_chars_iff
  simp only [joinText, he, text, String.toList_ofList]
  by_cases hp : p.parts = []
  case pos => simp [hl.mpr hp, hp]
  case neg => simp [mt hl.mp hp, hp]

theorem leadOf_chars_append (h : p.Settled) (hn : p.parts ≠ []) (cs : Chars) :
    leadOf (p.chars ++ cs) = p.lead := by
  have hj := join_ne_nil ['/'] (fun a ha => (h.parts a ha).ne_nil) hn
  have hh := head_join_ne h.parts
  rw [h.chars_eq, List.append_assoc]
  refine leadOf_replicate h.lead_le ?_
  simpa [List.head?_append, List.head?_eq_some_head hj] using hh

-- Texts go on after a slash just where parts go on.
theorem chars_prefix_iff (hd : d.Settled) (hp : p.Settled) (hn : d.parts ≠ []) :
    p.chars = d.chars ∨ d.chars ++ ['/'] <+: p.chars ↔ d.lead = p.lead ∧ d.parts <+: p.parts := by
  constructor
  case mp =>
    intro h
    cases h
    case inl h =>
      have : p = d := ofChars_chars hp.toClean ▸ h ▸ ofChars_chars hd.toClean
      simp [this]
    case inr h =>
      have ⟨cs, hc⟩ := h
      rw [List.append_assoc, List.singleton_append] at hc
      -- What is cut at the slash after the first path leaves its parts as they are.
      have hl := leadOf_chars_append hd hn ('/' :: cs)
      have hs := splitOn_append_sep '/' d.chars cs
      rw [hc] at hl hs
      constructor
      case left => rw [← hl]; exact congrArg Path.lead (ofChars_chars hp.toClean)
      case right =>
        rw [← hp.parts_eq_filter, hs, List.filter_append, hd.parts_eq_filter]
        exact List.prefix_append ..
  case mpr =>
    intro ⟨hl, as, ha⟩
    rw [hp.chars_eq, hd.chars_eq, ← hl, ← ha]
    by_cases hs : as = []
    case pos => exact .inl <| by rw [hs, List.append_nil]
    case neg =>
      refine .inr ⟨join ['/'] as, ?_⟩
      rw [join_append _ hn hs]
      simp only [List.append_assoc]

theorem replicate_prefix_iff {n m : Nat} {cs : Chars} (h : cs.head? ≠ some '/') :
    List.replicate n '/' <+: List.replicate m '/' ++ cs ↔ n ≤ m := by
  induction n generalizing m
  case zero => simp
  case succ n hi =>
    cases m
    case zero =>
      cases cs
      case nil       => simp
      case cons c cs =>
        have hc : '/' ≠ c := fun hc => h <| congrArg some hc.symm
        simp [List.replicate_succ, List.cons_prefix_cons, hc]
    case succ m => simp [List.replicate_succ, List.cons_prefix_cons, hi]

theorem root_prefix_iff (hd : d.Settled) (hp : p.Settled) (hn : d.parts = []) :
    p.chars = d.chars ∨ d.chars <+: p.chars ↔ d.lead ≤ p.lead := by
  have hi : d.chars <+: p.chars ↔ d.lead ≤ p.lead := by
    rw [hd.chars_eq, hp.chars_eq, hn, join, List.append_nil]
    exact replicate_prefix_iff <| head_join_ne hp.parts
  rw [or_iff_right_of_imp fun h => h ▸ List.prefix_refl _, hi]

-- The trust in a directory is told from texts, but it covers what lies in it.
theorem covers_iff (hd : d.Settled) (hp : p.Settled) :
    Trust.covers d.text p.text = true ↔ p.IsWithin d := by
  have ht : (p.text == d.text) = true ↔ p.chars = d.chars := by
    simp [text, String.ofList_inj]
  rw [Trust.covers, Bool.or_eq_true, ht, List.isPrefixOf_iff_prefix, hd.joinText_empty]
  simp only [text, String.toList_ofList, IsWithin]
  by_cases hn : d.parts = []
  case pos =>
    rw [if_pos hn, root_prefix_iff hd hp hn]
    have hr : d = root ↔ d.lead = 1 := by
      rw [Path.ext_iff]
      simp [root, hn]
    have := hd.lead_le
    have := hd.rooted
    have := hp.lead_le
    have := hp.rooted
    simp only [hr, hn, List.nil_prefix, and_true]
    omega
  case neg =>
    have hr : d ≠ root := fun hc => hn <| hc ▸ rfl
    rw [if_neg hn, chars_prefix_iff hd hp hn]
    simp [hr]

end SourceFlags.Path
