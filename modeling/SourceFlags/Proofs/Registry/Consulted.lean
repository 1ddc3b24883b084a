import SourceFlags.Registry.Owner

namespace SourceFlags

namespace FileMatcher

variable {w : World} {m : FileMatcher}

theorem consulted_isInstalled (w : World) (m : FileMatcher) :
    (m.consulted w).isInstalled w = m.isInstalled w := by
  unfold consulted
  split <;> rfl

theorem consulted_value (w : World) (m : FileMatcher) : (m.consulted w).value w = m.value w := by
  unfold consulted
  split
  case h_2 => rfl
  case h_1 v _ hv =>
    cases v
    case some v => exact hv ▸ value_of_stash w rfl
    case none =>
      cases hs : m.stash
      case some v => rw [value_of_stash w hs] at hv; cases hv
      case none   => rw [← hs]

theorem consulted_consulted (w : World) (m : FileMatcher) :
    (m.consulted w).consulted w = m.consulted w := by
  have hi := consulted_isInstalled w m
  have hv := consulted_value w m
  rw [consulted, hi, hv]
  split
  case h_1 hi hv => simp [consulted, hi, hv]
  case h_2 => rfl

theorem consulted_accepts (w : World) (m : FileMatcher) :
    (m.consulted w).accepts w = m.accepts w := by
  funext path
  rw [accepts, consulted_isInstalled, consulted_value]
  rfl

end FileMatcher

namespace Matcher

theorem consulted_isInstalled (w : World) (m : Matcher) :
    (m.consulted w).isInstalled w = m.isInstalled w := by
  cases m
  case literal => rfl
  case file m  => exact m.consulted_isInstalled w

theorem consulted_accepts (w : World) (m : Matcher) : (m.consulted w).accepts w = m.accepts w := by
  cases m
  case literal => rfl
  case file m  => exact m.consulted_accepts w

theorem consulted_consulted (w : World) (m : Matcher) :
    (m.consulted w).consulted w = m.consulted w := by
  cases m
  case literal => rfl
  case file m  => exact congrArg file <| m.consulted_consulted w

end Matcher

namespace ProjectType

variable {w : World} {t : ProjectType}

@[simp]
theorem consulted_consulted (w : World) (t : ProjectType) :
    (t.consulted w).consulted w = t.consulted w := by
  cases h : t.matcher <;> simp [consulted, h, Matcher.consulted_consulted]

@[simp]
theorem consulted_detects (w : World) (t : ProjectType) :
    (t.consulted w).detects w = t.detects w := by
  have hp : (t.consulted w).isPlaced w = t.isPlaced w := by
    funext directory
    cases h : t.matcher
    case none => simp [isPlaced, consulted, h]
    case some =>
      simp [isPlaced, consulted, h, Matcher.consulted_isInstalled, Matcher.consulted_accepts]
  funext directory
  simp only [detects, isIn, hp]
  rfl

theorem consulted_rise (w : World) (t : ProjectType) (current : String) (ds : List String) :
    (t.consulted w).rise w current ds = t.rise w current ds := by
  induction ds generalizing current
  case nil => rfl
  case cons d ds hi => simp only [rise, consulted_detects, hi]

@[simp]
theorem consulted_rootOf (w : World) (t : ProjectType) : (t.consulted w).rootOf w = t.rootOf w := by
  have hm : (t.consulted w).markedRoot w = t.markedRoot w := by
    funext directory
    simp only [markedRoot, consulted_rise]
    rfl
  funext directory
  simp only [rootOf, hm]
  rfl

end ProjectType

namespace Owner

def consulted (w : World) (o : Owner) : Owner :=
  { o with type := o.type.consulted w }

end Owner

namespace Registry

open ProjectType

variable {w : World} {r : Registry}

def consulted (w : World) (r : Registry) : Registry :=
  { r with types := r.types.map (·.consulted w) }

theorem consult_consulted (r : Registry) (w : World) (directory : String)
    (asked : List ProjectType) : (r.consult w directory asked).consulted w = r.consulted w := by
  unfold consult
  split
  case isFalse => rfl
  case isTrue =>
    simp only [consulted, List.map_map]
    congr 1
    refine List.map_congr_left fun t _ => ?_
    simp only [Function.comp_apply]
    split
    case isTrue  => exact t.consulted_consulted w
    case isFalse => rfl

theorem firstIn_consulted (w : World) (directory : String) (ts : List ProjectType) :
    firstIn w directory (ts.map (·.consulted w)) =
      (firstIn w directory ts).map (·.map (·.consulted w)) := by
  induction ts
  case nil => rfl
  case cons t ts hi =>
    simp only [List.map_cons, firstIn, consulted_detects, hi]
    split <;> rfl

theorem firstAmong_consulted (w : World) (ts : List ProjectType) (ds : List String) :
    firstAmong w (ts.map (·.consulted w)) ds =
      (firstAmong w ts ds).map (·.map fun found => (found.1.consulted w, found.2)) := by
  induction ds
  case nil => rfl
  case cons d ds hi =>
    simp only [firstAmong, firstIn_consulted, hi]
    cases firstIn w d ts
    case error    => rfl
    case ok found => cases found <;> rfl

theorem detect_consulted (r : Registry) (w : World) (directory : String) :
    (r.consulted w).detect w directory = (r.detect w directory).map (·.map (·.consulted w)) := by
  simp only [detect, World.about, consulted, firstIn_consulted]
  split <;> rfl

theorem rooted_consulted (r : Registry) (w : World) :
    (r.consulted w).rooted = r.rooted.map (·.consulted w) := by
  simp only [rooted, consulted, List.filter_map]
  rfl

theorem ownedBy_consulted (w : World) (t : ProjectType) (directory : String) :
    ownedBy w (t.consulted w) directory = (ownedBy w t directory).map (·.map (·.consulted w)) := by
  simp only [ownedBy, consulted_rootOf]
  cases t.rootOf w directory <;> rfl

theorem ownerAbove_consulted (r : Registry) (w : World) (directory : String)
    (here : Option ProjectType) :
    (r.consulted w).ownerAbove w directory (here.map (·.consulted w)) =
      (r.ownerAbove w directory here).map (·.map (·.consulted w)) := by
  unfold ownerAbove
  simp only [rooted_consulted, firstAmong_consulted]
  cases firstAmong w r.rooted (above w directory)
  case error => rfl
  case ok found =>
    cases found
    case some found => exact ownedBy_consulted ..
    case none =>
      cases here
      case none   => rfl
      case some t => exact ownedBy_consulted ..

theorem ownerOf_consulted (r : Registry) (w : World) (directory : String) :
    (r.consulted w).ownerOf w directory = (r.ownerOf w directory).map (·.map (·.consulted w)) := by
  simp only [ownerOf, detect_consulted]
  cases r.detect w directory
  case error => rfl
  case ok here =>
    cases here
    case none => exact r.ownerAbove_consulted w directory none
    case some t =>
      have hg : (t.consulted w).isGeneric = t.isGeneric := rfl
      change (if (t.consulted w).isGeneric = true then _ else _) = Except.map _ (ite _ _ _)
      rw [hg]
      split
      case isTrue  => exact r.ownerAbove_consulted w directory (some t)
      case isFalse => exact ownedBy_consulted w t directory

theorem owner_consulted (r : Registry) (w : World) (directory : String) :
    (r.consulted w).owner w directory = (r.owner w directory).map (·.map (·.consulted w)) := by
  simp only [owner, World.about, ownerOf_consulted]
  split <;> rfl

end Registry
end SourceFlags
