import SourceFlags.World.Basic

namespace SourceFlags

open Text

namespace FileTree

variable {t u : FileTree} {part : Part} {place : Place}

theorem countLinks_of_lookup {children : List (Part × FileTree)}
    (h : children.lookup part = some u) (hl : countLinksIn children = 0) : u.countLinks = 0 := by
  induction children
  case nil => contradiction
  case cons c children hi =>
    have ⟨hc, hs⟩ := Nat.add_eq_zero_iff.mp hl
    rw [List.lookup_cons] at h
    split at h
    case h_1 => exact Option.some.inj h ▸ hc
    case h_2 => exact hi h hs

theorem countLinks_of_child? (h : t.child? part = some u) (hl : t.countLinks = 0) :
    u.countLinks = 0 := by
  cases t
  case directory => exact countLinks_of_lookup (lookup_of_child? h) hl
  all_goals contradiction

def leadsDown (place : Place) : Bool :=
  place.all fun part => Path.names part && part != Path.up

section

variable {links : Nat} {trail : Trail} {rest : List Part}

theorem follow_empty (links : Nat) (trail : Trail) (rest : List Part) :
    t.follow links trail ([] :: rest) = t.follow links trail rest := by
  have hn : Path.names [] = false := rfl
  rw [follow]
  simp [hn]

theorem isEmpty_of_names (h : Path.names part = true) : part.isEmpty = false := by
  simp only [Path.names, Bool.and_eq_true, Bool.not_eq_true'] at h
  exact h.left

theorem isClosed_of_child? (h : t.child? part = some u) : t.isClosed = false := by
  cases t
  case directory access children =>
    simp only [child?] at h
    split at h
    case isTrue hs => simp [isClosed, hs]
    case isFalse   => contradiction
  all_goals rfl

theorem follow_closed (hp : part.isEmpty = false) (h : (t.atEnd trail).isClosed = true) :
    t.follow links trail (part :: rest) = .error .noAccess := by
  rw [follow]
  simp [hp, h]

theorem follow_absent (hn : Path.names part = true) (hu : part ≠ Path.up)
    (ho : (t.atEnd trail).isClosed = false) (h : (t.atEnd trail).child? part = none) :
    t.follow links trail (part :: rest) = .error (absence part) := by
  rw [follow]
  simp [hn, hu, ho, h]

theorem follow_directory {access : Access} {children : List (Part × FileTree)}
    (hn : Path.names part = true) (hu : part ≠ Path.up)
    (h : (t.atEnd trail).child? part = some (.directory access children)) :
    t.follow links trail (part :: rest) =
      t.follow links ((part, .directory access children) :: trail) rest := by
  rw [follow]
  simp [hn, hu, h, isClosed_of_child? h]

theorem follow_link {goal : String} (hn : Path.names part = true) (hu : part ≠ Path.up)
    (h : (t.atEnd trail).child? part = some (.link goal)) :
    t.follow (links + 1) trail (part :: rest) =
      t.follow links (goalStart trail goal) (goalParts goal ++ rest) := by
  rw [follow]
  simp [hn, hu, h, isClosed_of_child? h]

end

theorem follow_eq_ok_iff {links : Nat} {trail : Trail} (hp : leadsDown place = true)
    (hl : (t.atEnd trail).countLinks = 0) :
    (t.follow links trail place).map t.atEnd = .ok u ↔ (t.atEnd trail).find? place = some u := by
  induction place generalizing trail
  case nil => simp [follow, find?, Except.map]
  case cons part place hi =>
    obtain ⟨⟨hn, hu⟩, hp⟩ : (Path.names part = true ∧ part ≠ Path.up) ∧ leadsDown place = true := by
      simpa [leadsDown] using hp
    cases hc : (t.atEnd trail).child? part
    case none =>
      have hf : ∃ e, t.follow links trail (part :: place) = .error e := by
        cases ho : (t.atEnd trail).isClosed
        case false => exact ⟨_, follow_absent hn hu ho hc⟩
        case true  => exact ⟨_, follow_closed (isEmpty_of_names hn) ho⟩
      obtain ⟨e, hf⟩ := hf
      simp [hf, find?, hc, Except.map]
    case some c =>
      have hl := countLinks_of_child? hc hl
      rw [follow, find?, hc]
      simp only [hn, hu, isClosed_of_child? hc, Bool.and_false, Bool.not_true, Bool.false_eq_true,
        if_false]
      cases c
      case directory  => exact hi hp hl
      case link       => contradiction
      case file x e   => cases place <;> simp [find?, child?, Except.map, atEnd]

theorem locate_eq_ok_iff (hp : leadsDown place = true) (hl : t.countLinks = 0) :
    t.locate ([] :: place) = .ok u ↔ t.find? place = some u := by
  rw [locate, follow_empty]
  exact follow_eq_ok_iff hp hl

end FileTree

namespace World

variable {w : World} {path : String} {place : Place} {u : FileTree}

theorem locate_of_isAbsolute (h : Path.isAbsolute path = true) (ht : isTooLong path = false) :
    w.locate path = w.files.locate (w.partsOf path) := by
  have hn : path.isEmpty = false := by
    refine Bool.eq_false_iff.mpr fun hn => ?_
    simp [String.isEmpty_iff.mp hn, Path.isAbsolute] at h
  have hr : w.reaches path = true := by simp [reaches, h]
  simp [locate, ht, hn, hr]

theorem locate_top (w : World) : w.locate "/" = .ok w.files := by
  have hp : w.partsOf "/" = [[], []] := rfl
  rw [locate_of_isAbsolute rfl (by decide), hp, FileTree.locate, FileTree.follow_empty,
    FileTree.follow_empty, FileTree.follow]
  rfl

theorem locate_eq_ok_iff (h : Path.isAbsolute path = true) (ht : isTooLong path = false)
    (he : w.partsOf path = [] :: place) (hp : FileTree.leadsDown place = true)
    (hl : w.files.countLinks = 0) :
    w.locate path = .ok u ↔ w.files.find? place = some u := by
  rw [locate_of_isAbsolute h ht, he]
  exact FileTree.locate_eq_ok_iff hp hl

theorem toOption_locate (h : Path.isAbsolute path = true) (ht : isTooLong path = false)
    (he : w.partsOf path = [] :: place) (hp : FileTree.leadsDown place = true)
    (hl : w.files.countLinks = 0) :
    (w.locate path).toOption = w.files.find? place := by
  refine Option.ext fun u => ?_
  rw [← locate_eq_ok_iff h ht he hp hl]
  cases w.locate path <;> simp [Except.toOption]

theorem isThere_eq_isSome (w : World) (path : String) :
    w.isThere path = (w.locate path).toOption.isSome := by
  rw [isThere]
  cases w.locate path <;> rfl

theorem isThere_eq (h : Path.isAbsolute path = true) (ht : isTooLong path = false)
    (he : w.partsOf path = [] :: place) (hp : FileTree.leadsDown place = true)
    (hl : w.files.countLinks = 0) :
    w.isThere path = (w.files.find? place).isSome := by
  rw [isThere_eq_isSome, toOption_locate h ht he hp hl]

theorem isFile_eq (h : Path.isAbsolute path = true) (ht : isTooLong path = false)
    (he : w.partsOf path = [] :: place) (hp : FileTree.leadsDown place = true)
    (hl : w.files.countLinks = 0) :
    w.isFile path = (w.files.find? place).any FileTree.isFile := by
  rw [← toOption_locate h ht he hp hl, isFile]
  cases w.locate path <;> rfl

theorem isExecutable_eq (h : Path.isAbsolute path = true) (ht : isTooLong path = false)
    (he : w.partsOf path = [] :: place) (hp : FileTree.leadsDown place = true)
    (hl : w.files.countLinks = 0) :
    w.isExecutable path = (w.files.find? place).any FileTree.isProgram := by
  rw [← toOption_locate h ht he hp hl, isExecutable]
  cases w.locate path <;> rfl

theorem exists_locate_of_isFile (h : w.isFile path = true) :
    ∃ content executable, w.locate path = .ok (.file content executable) := by
  rw [isFile] at h
  generalize w.locate path = found at h ⊢
  rcases found with _ | (⟨content, executable⟩ | _ | _)
  case ok.file => exact ⟨content, executable, rfl⟩
  all_goals contradiction

theorem checkFile_eq_error_iff {e : Error} : w.checkFile path = .error e ↔
    ∃ errno, e = .refused errno ∧ w.locate path = .error errno ∧ errno.isAbsence = false := by
  constructor
  case mp =>
    intro h
    unfold checkFile check at h
    split at h
    case h_1 => cases h
    case h_2 errno hl =>
      split at h
      case isTrue     => cases h
      case isFalse hn => exact ⟨errno, (Except.error.inj h).symm, hl, by simpa using hn⟩
  case mpr =>
    rintro ⟨errno, rfl, hl, ha⟩
    simp [checkFile, check, hl, ha]

theorem read_of_file {s : String} {executable : Bool}
    (hf : w.locate path = .ok (.file (.text s) executable)) (hs : '\r' ∉ s.toList) :
    w.read path = .ok s := by
  have hr : (Content.text s).read = s := by
    simp only [Content.read, foldNewlines_eq_self hs, String.ofList_toList]
  simp only [read, hf, hr]

end World
end SourceFlags
