import Mathlib.Data.List.Basic
import SourceFlags.Proofs.Path.Normal

namespace SourceFlags.Path

structure IsAbove (a p : Path) : Prop where
  lead  : a.lead = p.lead
  parts : a.parts <+: p.parts
  ne    : a.parts ≠ p.parts

variable {a b p : Path} {cwd s : String}

theorem mem_ancestors_iff : a ∈ p.ancestors ↔ a.IsAbove p := by
  simp only [ancestors, List.mem_map, mem_beginnings_iff]
  constructor
  case mp =>
    rintro ⟨as, ⟨hp, hn⟩, rfl⟩
    exact ⟨rfl, hp, hn⟩
  case mpr => exact fun h => ⟨a.parts, ⟨h.parts, h.ne⟩, by rw [← h.lead]⟩

theorem beginnings_longest_first {α : Type} (l : List α) :
    (beginnings l).Pairwise fun b c => c <+: b ∧ c ≠ b := by
  induction l
  case nil => exact .nil
  case cons x l hi =>
    refine List.pairwise_append.mpr ⟨?longer, List.pairwise_singleton .., ?empty⟩
    case longer =>
      refine List.pairwise_map.mpr <| hi.imp fun ⟨hp, hn⟩ => ?_
      exact ⟨List.cons_prefix_cons.mpr ⟨rfl, hp⟩, fun hc => hn (List.cons.inj hc).right⟩
    case empty =>
      intro b hb c hc
      have ⟨b', _, hb'⟩ := List.mem_map.mp hb
      rw [List.mem_singleton.mp hc, ← hb']
      exact ⟨List.nil_prefix, (List.cons_ne_nil x b').symm⟩

theorem ancestors_nearest_first (p : Path) : p.ancestors.Pairwise fun a b => b.IsAbove a :=
  List.pairwise_map.mpr <| (beginnings_longest_first p.parts).imp fun ⟨hp, hn⟩ => ⟨rfl, hp, hn⟩

theorem beginnings_concat {α : Type} (l : List α) (x : α) :
    beginnings (l ++ [x]) = l :: beginnings l := by
  induction l
  case nil         => rfl
  case cons a l hi => simp [beginnings, hi]

theorem ancestors_eq_cons (h : p.parts ≠ []) : p.ancestors = p.parent :: p.parent.ancestors := by
  have hp : p.parts = p.parts.dropLast ++ [p.parts.getLast h] :=
    (List.dropLast_append_getLast h).symm
  rw [ancestors, hp, beginnings_concat]
  simp [ancestors, parent]

theorem IsAbove.length_lt (h : a.IsAbove p) : a.parts.length < p.parts.length :=
  Nat.lt_of_not_le fun hc => h.ne <| h.parts.eq_of_length_le hc

theorem IsAbove.parts_ne_nil (h : a.IsAbove p) : p.parts ≠ [] :=
  List.ne_nil_of_length_pos <| Nat.zero_lt_of_lt h.length_lt

theorem IsAbove.not_above (h : a.IsAbove b) : ¬b.IsAbove a :=
  fun hc => Nat.lt_asymm h.length_lt hc.length_lt

def LeadsTo (a p : Path) : Prop :=
  a.lead = p.lead ∧ a.parts <+: p.parts

instance (a p : Path) : Decidable (a.LeadsTo p) :=
  inferInstanceAs <| Decidable (a.lead = p.lead ∧ a.parts <+: p.parts)

namespace LeadsTo

theorem refl (p : Path) : p.LeadsTo p :=
  ⟨rfl, List.prefix_refl _⟩

theorem trans (h₁ : a.LeadsTo b) (h₂ : b.LeadsTo p) : a.LeadsTo p :=
  ⟨h₁.left.trans h₂.left, h₁.right.trans h₂.right⟩

theorem settled (h : a.LeadsTo p) (hp : p.Settled) : a.Settled where
  lead_le := h.left ▸ hp.lead_le
  parts   := fun part hm => hp.parts part <| h.right.subset hm
  rooted  := h.left ▸ hp.rooted
  no_up   := fun hm => hp.no_up <| h.right.subset hm

end LeadsTo

theorem IsAbove.leadsTo (h : a.IsAbove p) : a.LeadsTo p :=
  ⟨h.lead, h.parts⟩

theorem IsAbove.settled (h : a.IsAbove p) (hp : p.Settled) : a.Settled :=
  h.leadsTo.settled hp

theorem leadsTo_of_mem (h : a ∈ p :: p.ancestors) : a.LeadsTo p := by
  cases h
  case head   => exact .refl a
  case tail h => exact (mem_ancestors_iff.mp h).leadsTo

theorem parent_leadsTo (p : Path) : p.parent.LeadsTo p :=
  ⟨rfl, List.dropLast_prefix p.parts⟩

theorem parent_isAbove (h : p.parts ≠ []) : p.parent.IsAbove p :=
  mem_ancestors_iff.mp <| ancestors_eq_cons h ▸ List.mem_cons_self

theorem LeadsTo.eq_or_isAbove (h : a.LeadsTo p) : a = p ∨ a.IsAbove p := by
  by_cases hp : a.parts = p.parts
  case pos =>
    cases a
    cases p
    exact .inl <| congr (congrArg mk h.left) hp
  case neg => exact .inr ⟨h.left, h.right, hp⟩

theorem LeadsTo.isAbove (h₁ : a.LeadsTo b) (h₂ : b.IsAbove p) : a.IsAbove p where
  lead  := h₁.left.trans h₂.lead
  parts := h₁.right.trans h₂.parts
  ne    := fun hc => Nat.not_le_of_lt h₂.length_lt <| hc ▸ h₁.right.length_le

theorem IsAbove.trans_leadsTo (h₁ : a.IsAbove b) (h₂ : b.LeadsTo p) : a.IsAbove p where
  lead  := h₁.lead.trans h₂.left
  parts := h₁.parts.trans h₂.right
  ne    := fun hc => Nat.not_le_of_lt h₁.length_lt <| hc ▸ h₂.right.length_le

theorem isAbove_iff (h : p.parts ≠ []) : a.IsAbove p ↔ a.LeadsTo p.parent := by
  constructor
  case mp =>
    intro ha
    rw [← mem_ancestors_iff, ancestors_eq_cons h] at ha
    exact leadsTo_of_mem ha
  case mpr => exact fun ha => ha.isAbove <| parent_isAbove h

theorem absolute_absoluteText (h : isAbsolute cwd = true) (s : String) :
    absolute cwd (absoluteText cwd s) = absolute cwd s :=
  (absolute_settled h s).absolute_text cwd

theorem absoluteText_absoluteText (h : isAbsolute cwd = true) (s : String) :
    absoluteText cwd (absoluteText cwd s) = absoluteText cwd s :=
  congrArg text <| absolute_absoluteText h s

theorem asDirectory_absoluteText (h : isAbsolute cwd = true) (s : String) :
    asDirectory cwd (absoluteText cwd s) = asDirectory cwd s := by
  rw [asDirectory, absoluteText_absoluteText h, asDirectory]

end SourceFlags.Path
