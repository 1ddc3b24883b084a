import SourceFlags.ProjectType.Basic
import SourceFlags.Proofs.Matcher.Reading
import SourceFlags.Proofs.Path.Occurrence

namespace SourceFlags

open Text SourceFlags.Path

namespace FileMatcher

variable {w : World} {m : FileMatcher} {v : String}

theorem Gives.accepts (h : m.Gives w v) (hm : m.stash = none) (path : String) :
    ∃ b, m.accepts w path = .ok b ∧ (b = true ↔ v.toList <:+: path.toList) := by
  have hi := isInstalled_eq_ok_true_iff.mpr h.hasFile
  have ⟨p, content, hp, hc, hv⟩ := h
  have hvalue : m.value w = .ok (some v) := by simp [value, hm, hp, hc, hv]
  exact ⟨_, by simp [FileMatcher.accepts, hi, hvalue], occursIn_iff⟩

end FileMatcher

theorem ProjectType.isPlaced_eq_accepts {t : ProjectType} {m : Matcher} (h : t.matcher = some m)
    (w : World) (directory : String) : t.isPlaced w directory = m.accepts w directory := by
  cases m
  case literal => simp [isPlaced, h, Matcher.isInstalled]
  case file m =>
    simp only [isPlaced, h, Matcher.isInstalled, Matcher.accepts, FileMatcher.accepts]
    rcases m.isInstalled w with _ | _ | _ <;> rfl

namespace FileMatcher

variable {w : World} {m : FileMatcher} {v : String}

-- An empty text takes all directories. A path takes the directories at and below it, and with them
-- those where it stands in the midst of the path, and those whose names go on where it ends.
theorem accepts_where_given_occurs (hw : isAbsolute w.cwd = true) (hm : m.stash = none)
    (hv : m.Gives w v) (d : String) :
    let directory := asDirectory w.cwd d
    (∃ b, m.accepts w directory = .ok b ∧ (b = true ↔ v.toList <:+: directory.toList)) ∧
    (v = "" → m.accepts w directory = .ok true) ∧
    (∀ s : Path, s.Settled → s.lead = 1 → s.parts ≠ [] → v = s.text →
      (m.accepts w directory = .ok true ↔ ∃ before name after,
        (w.absolute d).parts = before ++ s.parts.dropLast ++ name :: after ∧ s.name <+: name) ∧
      ((w.absolute d).IsWithin s → m.accepts w directory = .ok true)) ∧
    ∀ t : ProjectType, t.matcher = some (.file m) →
      t.isPlaced w directory = m.accepts w directory := by
  intro directory
  obtain ⟨b, hb, hi⟩ := hv.accepts hm directory
  have hok : m.accepts w directory = .ok true ↔ v.toList <:+: directory.toList := by
    simp [hb, hi]
  refine ⟨⟨b, hb, hi⟩, ?empty, ?path, fun t ht => t.isPlaced_eq_accepts ht w directory⟩
  case empty => exact fun h => hok.mpr <| h ▸ List.nil_infix
  case path =>
    intro s hs hl hn h
    have hp : (w.absolute d).Settled := absolute_settled hw d
    rw [h, Path.text, String.toList_ofList] at hok
    have hiff := hok.trans <| hs.occurs_iff hl hn hp
    refine ⟨hiff, fun hwithin => hiff.mpr ?_⟩
    have hr : s ≠ Path.root := fun hr => hn <| hr ▸ rfl
    obtain ⟨after, ha⟩ := (hwithin.resolve_left hr).right
    refine ⟨[], s.name, after, ?_, List.prefix_refl _⟩
    rw [List.nil_append, List.append_cons, dropLast_concat_name hn]
    exact ha.symm

-- A directory elsewhere that has the name of the configured one and a bit more.
theorem accepts_where_given_occurs_elsewhere :
    let w := holding "sketchbook.path=/s \n"
    let m : FileMatcher := ⟨.path "/p", .sketchbook, 1, none⟩
    isAbsolute w.cwd = true ∧ m.stash = none ∧ m.Gives w "/s" ∧
    m.accepts w (asDirectory w.cwd "/b/s.old") = .ok true ∧
    ¬(w.absolute "/b/s.old").IsWithin (w.absolute "/s") := by
  intro w m
  have hv : m.Gives w "/s" := ⟨_, _, rfl, read_holding (by decide), by rfl⟩
  have hw : isAbsolute w.cwd = true := by decide
  have ⟨_, _, hpath, _⟩ := accepts_where_given_occurs hw rfl hv "/b/s.old"
  have ⟨hiff, _⟩ :=
    hpath (w.absolute "/s") (absolute_settled hw "/s") (by decide) (by decide) (by decide)
  have hparts : (w.absolute "/b/s.old").parts =
    [['b']] ++ (w.absolute "/s").parts.dropLast ++ "s.old".toList :: [] := by decide
  exact ⟨hw, rfl, hv, hiff.mpr ⟨_, _, _, hparts, by decide⟩, by decide⟩

end FileMatcher
end SourceFlags
