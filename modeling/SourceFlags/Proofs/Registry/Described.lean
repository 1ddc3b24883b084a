import SourceFlags.Proofs.Path.Within
import SourceFlags.Proofs.Registry.Roots

namespace SourceFlags

open Text SourceFlags.Path

namespace Path

variable {p : Path}

theorem Settled.joinText_empty_append (h : p.Settled) (part : Part) :
    (joinText p.text "").toList ++ part = (p.child part).chars := by
  have hc : (p.child part).chars = List.replicate p.lead '/' ++ join ['/'] (p.parts ++ [part]) := by
    simp [child, chars, h.rooted]
  rw [h.joinText_empty, hc, h.chars_eq]
  split
  case isTrue hn => simp [hn, join]
  case isFalse hn => simp [join_append ['/'] hn (List.cons_ne_nil part []), join]

end Path

namespace BuildDescription

theorem path_text {d : Path} (h : d.Settled) (cwd : String) :
    (path d.text).text = asDirectory cwd d.text ++ fileName := by
  have hf : IsPart fileName.toList := ⟨by decide, by decide⟩
  have ha : absoluteText cwd d.text = d.text := congrArg Path.text (h.absolute_text cwd)
  rw [path, ofText_text h.toClean, append_of_isPart d hf, asDirectory, ha, Path.text,
    ← h.joinText_empty_append]
  simp

theorem eq_fileName_of_marker {w : World} {directory name : String}
    (h : automakeMarker w directory = some name) : name = fileName := by
  unfold automakeMarker at h
  split at h
  case h_1 =>
    split at h
    case isTrue  => exact (Option.some.inj h).symm
    case isFalse => cases h
  case h_2 => cases h

end BuildDescription

namespace ProjectType

variable {w : World} {t : ProjectType} {directory root : String}

theorem consulted_of_no_matcher (h : t.matcher = none) (w : World) : t.consulted w = t := by
  cases t
  subst h
  rfl

theorem detects_of_found {find : World → String → Option String}
    (hm : t.marker = some (.found fun w directory => .ok (.ofText? (find w directory))))
    (hn : t.matcher = none) (hd : w.reaches directory = true) :
    t.detects w directory = .ok ((find w (asDirectory w.cwd directory)).any fun name =>
      !name.isEmpty && w.isThere (asDirectory w.cwd directory ++ name)) := by
  simp only [detects, World.about_of_reaches hd, isIn, isPlaced, hn, isMarked, markerName, hm]
  cases find w (asDirectory w.cwd directory) <;> rfl

theorem rise_isFound {current : String} {ds : List String} (hc : t.IsFound w current)
    (h : t.rise w current ds = .ok root) : t.IsFound w root := by
  induction ds generalizing current
  case nil => exact Except.ok.inj h ▸ hc
  case cons d ds hi =>
    rw [rise] at h
    split at h
    case h_1    => cases h
    case h_2    => exact Except.ok.inj h ▸ hc
    case h_3 hd => exact hi hd h

theorem rootOf_isFound {p : Path} (hp : p.Settled) (hf : t.rootFinder = none)
    (hc : t.IsFound w p.text) (h : t.rootOf w p.text = .ok root) : t.IsFound w root := by
  rw [rootOf, World.about_of_reaches (World.reaches_text hp), World.absoluteText_text hp] at h
  simp only [hf] at h
  unfold markedRoot at h
  split at h
  case isTrue  => exact Except.ok.inj h ▸ hc
  case isFalse => exact rise_isFound hc h

end ProjectType

namespace Registry

open ProjectType

-- The two types of build descriptions, one for each kind of makefile.
def automakeDescription : ProjectType :=
  described "edeproject-automake"
    (.found fun w directory => .ok (.ofText? (BuildDescription.automakeMarker w directory)))
    "Makefile.am"

def makefileDescription : ProjectType :=
  described "edeproject-makefile" (.file BuildDescription.fileName) "Makefile"

inductive IsDescription : ProjectType → Prop
  | automake : IsDescription automakeDescription
  | makefile : IsDescription makefileDescription

def DescribesFirst (r : Registry) : Prop :=
  [automakeDescription, makefileDescription] <+: r.types

variable {r : Registry} {w : World} {t : ProjectType} {d : Path}

theorem builtin_describesFirst : builtin.DescribesFirst :=
  ⟨_, rfl⟩

theorem DescribesFirst.consult (h : r.DescribesFirst) (w : World) (directory : String)
    (asked : List ProjectType) : (r.consult w directory asked).DescribesFirst := by
  have ⟨ts, ht⟩ := h
  unfold Registry.consult
  split
  case isFalse => exact h
  case isTrue  =>
    have ha : automakeDescription.consulted w = automakeDescription := consulted_of_no_matcher rfl w
    have hm : makefileDescription.consulted w = makefileDescription := consulted_of_no_matcher rfl w
    simp [DescribesFirst, ← ht, ha, hm]

namespace IsDescription

theorem answers (h : IsDescription t) : t.Answers w := by
  cases h
  case automake => exact fun _ hd => ⟨_, detects_of_found rfl rfl hd⟩
  case makefile => exact answers_of_file rfl rfl

theorem isThere (h : IsDescription t) (hd : d.Settled) (hf : t.IsFound w d.text) :
    w.isThere (BuildDescription.path d.text).text = true := by
  have hr := World.reaches_text (w := w) hd
  rw [BuildDescription.path_text hd w.cwd]
  cases h
  case makefile =>
    rw [IsFound, detects_of_file rfl rfl hr] at hf
    exact (Bool.and_eq_true_iff.mp <| Except.ok.inj hf).right
  case automake =>
    rw [IsFound, detects_of_found rfl rfl hr] at hf
    obtain ⟨_, hn, ht⟩ := (Option.any_eq_true _ _).mp <| Except.ok.inj hf
    exact BuildDescription.eq_fileName_of_marker hn ▸ (Bool.and_eq_true_iff.mp ht).right

theorem load_described (name : String) (marker : Marker) (makefile : String) :
    (described name marker makefile).load =
      Recipe.buildDescription.load [("makefile_type", .text makefile)] := by
  simp only [described, marked]

theorem load_eq (h : IsDescription t) (w : World) (root : String) :
    t.load w root = (BuildDescription.load w root).map some := by
  have hu (makefile : String) :
      Recipe.buildDescription.unexpected? [("makefile_type", .text makefile)] = none := rfl
  cases h
  case automake =>
    rw [automakeDescription, load_described]
    simp only [Recipe.load, hu, Recipe.make]
  case makefile =>
    rw [makefileDescription, load_described]
    simp only [Recipe.load, hu, Recipe.make]

theorem rootFinder_eq (h : IsDescription t) : t.rootFinder = none := by
  cases h <;> rfl

end IsDescription

structure Describes (w : World) (d : Path) (t : ProjectType) (root : Path) : Prop where
  type    : IsDescription t
  above   : root.LeadsTo d
  rootOf  : t.rootOf w d.text = .ok root.text
  isThere : w.isThere (BuildDescription.path root.text).text = true

theorem exists_describes (ht : IsDescription t) (hd : d.Settled) (hf : t.IsFound w d.text)
    (hw : isAbsolute w.cwd = true) : ∃ root, Describes w d t root := by
  have hr := World.reaches_text (w := w) hd
  have ⟨s, hs⟩ := rootOf_ok hw hr ht.answers (fun find hf => nomatch ht.rootFinder_eq.symm.trans hf)
  have ⟨root, ha, he⟩ := rootOf_leadsTo hd (.inl ht.rootFinder_eq) hs
  subst he
  have hi := ht.isThere (ha.settled hd) <| rootOf_isFound hd ht.rootFinder_eq hf hs
  exact ⟨root, ht, ha, hs, hi⟩

theorem firstIn_of_description (h : r.DescribesFirst) (hd : d.Settled)
    (hi : w.isThere (BuildDescription.path d.text).text = true) :
    ∃ t, IsDescription t ∧ t.IsFound w d.text ∧ firstIn w d.text r.types = .ok (some t) := by
  have hr := World.reaches_text (w := w) hd
  have ⟨ts, hts⟩ := h
  rw [← hts, List.cons_append, firstIn]
  obtain ⟨found, ha⟩ := IsDescription.automake.answers (w := w) d.text hr
  cases found
  case true  => exact ⟨_, .automake, ha, by rw [ha]⟩
  case false =>
    have hm : makefileDescription.IsFound w d.text := by
      rw [IsFound, detects_of_file rfl rfl hr, ← BuildDescription.path_text hd, hi]
      rfl
    have hf : makefileDescription.detects w d.text = .ok true := hm
    exact ⟨_, .makefile, hm, by rw [ha, List.cons_append, firstIn, hf]⟩

theorem owner_of_description (h : r.DescribesFirst) (hw : isAbsolute w.cwd = true) (hd : d.Settled)
    (hi : w.isThere (BuildDescription.path d.text).text = true) :
    ∃ t root, Describes w d t root ∧ r.owner w d.text = .ok (some ⟨t, root.text⟩) := by
  have hr := World.reaches_text (w := w) hd
  have ⟨t, ht, hf, hfirst⟩ := firstIn_of_description h hd hi
  have ⟨root, hroot⟩ := exists_describes ht hd hf hw
  refine ⟨t, root, hroot, ?_⟩
  have hg : t.isGeneric = false := by cases ht <;> rfl
  rw [owner, World.about_of_reaches hr, World.absoluteText_text hd, ownerOf, detect,
    World.about_of_reaches hr, hfirst]
  simp only [hg, ownedBy, hroot.rootOf]
  rfl

end Registry
end SourceFlags
