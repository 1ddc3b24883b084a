import Mathlib.Tactic.TFAE
import SourceFlags.Proofs.Project.Contains
import SourceFlags.Proofs.World.Steady

namespace SourceFlags

open Text SourceFlags.Path

namespace Path

variable {p d : Path} {home s : String}

theorem Settled.lead_eq_one (h : p.Settled) (hs : ['/', '/'].isPrefixOf p.text.toList = false) :
    p.lead = 1 := by
  have hr := h.rooted
  have hl := h.lead_le
  have hn : p.lead ≠ 2 := by
    intro h2
    rw [text, String.toList_ofList, h.chars_eq, h2] at hs
    simp [List.replicate] at hs
  omega

theorem isWithin_iff_of_lead (hd : d.lead = 1) (hp : p.lead = 1) :
    p.IsWithin d ↔ d.parts <+: p.parts := by
  constructor
  case mp =>
    rintro (rfl | ⟨_, h⟩)
    · exact List.nil_prefix
    · exact h
  case mpr => exact fun h => .inr ⟨hd.trans hp.symm, h⟩

theorem expandHome_eq_self (h : s.toList.head? ≠ some '~') : expandHome home s = s := by
  unfold expandHome
  split
  case h_1 hs => simp [hs] at h
  case h_2    => rfl

end Path

namespace Project

variable {w : World} {q : Project} {path : String}

theorem place_eq_absolute {cwd s : String} (h : (absolute cwd s).lead = 1) :
    place cwd s = absolute cwd s := by
  unfold place
  split
  case isTrue hn => exact Path.ext h.symm hn.symm
  case isFalse   => rfl

theorem contains_trusted_prefix_tfae (hw : isAbsolute w.cwd = true)
    (hh : q.root.toList.head? ≠ some '~')
    (hr : ['/', '/'].isPrefixOf (w.absoluteText q.root).toList = false)
    (hp : ['/', '/'].isPrefixOf (w.absoluteText path).toList = false) :
    [(q.settle w.cwd).contains w.cwd path = true,
      (Trust.ofDirectories w [q.root]).isTrusted w.cwd path = true,
      (w.absolute q.root).parts <+: (w.absolute path).parts].TFAE := by
  have hroot : (w.absolute q.root).Settled := absolute_settled hw q.root
  have hpath : (w.absolute path).Settled := absolute_settled hw path
  have hlr := hroot.lead_eq_one hr
  have hlp := hpath.lead_eq_one hp
  have hwithin := isWithin_iff_of_lead hlr hlp
  tfae_have 1 ↔ 3 := by
    rw [contains_iff hw (q.settle_root w.cwd), place_eq_absolute hlr]
    exact hwithin
  tfae_have 2 ↔ 3 := by
    have hd : Trust.directory w q.root = (w.absolute q.root).text :=
      congrArg w.absoluteText (expandHome_eq_self hh)
    have ht : (Trust.ofDirectories w [q.root]).isTrusted w.cwd path =
        Trust.covers (w.absolute q.root).text (w.absolute path).text := by
      simp [Trust.isTrusted, Trust.ofDirectories, hd]
      rfl
    rw [ht, covers_iff hroot hpath]
    exact hwithin
  tfae_finish

-- A path that climbs out of the root is in neither, though its text begins like the root's.
theorem contains_trusted_below_and_beside :
    let q := bare "a/../b" .plain
    let w := World.bare
    isAbsolute w.cwd = true ∧ q.root.toList.head? ≠ some '~' ∧
    ['/', '/'].isPrefixOf (w.absoluteText q.root).toList = false ∧
    (∀ path ∈ ["/b/./c", "/b/../bc"],
      ['/', '/'].isPrefixOf (w.absoluteText path).toList = false) ∧
    ((q.settle w.cwd).contains w.cwd "/b/./c" = true ∧
      (Trust.ofDirectories w [q.root]).isTrusted w.cwd "/b/./c" = true) ∧
    ¬((q.settle w.cwd).contains w.cwd "/b/../bc" = true ∨
      (Trust.ofDirectories w [q.root]).isTrusted w.cwd "/b/../bc" = true) := by
  intro q w
  have hw : isAbsolute w.cwd = true := by decide
  have hh : q.root.toList.head? ≠ some '~' := by decide
  have hr : ['/', '/'].isPrefixOf (w.absoluteText q.root).toList = false := by decide
  have hc : ['/', '/'].isPrefixOf (w.absoluteText "/b/./c").toList = false := by decide
  have hb : ['/', '/'].isPrefixOf (w.absoluteText "/b/../bc").toList = false := by decide
  have below := contains_trusted_prefix_tfae hw hh hr hc
  have beside := contains_trusted_prefix_tfae hw hh hr hb
  have hin : (w.absolute q.root).parts <+: (w.absolute "/b/./c").parts := by decide
  have hout : ¬(w.absolute q.root).parts <+: (w.absolute "/b/../bc").parts := by decide
  refine ⟨hw, hh, hr, by simp [hc, hb], ⟨(below.out 0 2).mpr hin, (below.out 1 2).mpr hin⟩, ?_⟩
  rintro (h | h)
  · exact hout ((beside.out 0 2).mp h)
  · exact hout ((beside.out 1 2).mp h)

end Project

end SourceFlags
