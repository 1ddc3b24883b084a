import SourceFlags.Automake.Tree
import SourceFlags.Proofs.Except
import SourceFlags.Proofs.Path.Relative
import SourceFlags.Proofs.World.Arrival

namespace SourceFlags.Automake

open SourceFlags.Path

variable {w : World} {root directory p : Path} {unseen : List Place} {visit : Visit}
variable {waiting : List Visit} {m : Makefile} {all : List Makefile} {place : Place} {s : String}
variable {e : Error}

theorem isPart_fileName : IsPart fileName.toList :=
  ⟨by decide, by decide⟩

theorem fileName_ne_up : fileName.toList ≠ up := by
  decide

theorem Makefile.eq_of_read? (h : read? w root directory = some m) :
    m.root = root ∧ m.directory = directory := by
  unfold read? at h
  split at h
  case h_1 => cases h; exact ⟨rfl, rfl⟩
  case h_2 => cases h

theorem isFile_of_read? (h : Makefile.read? w root directory = some m) :
    w.isFile (directory.append fileName).text = true := by
  unfold Makefile.read? World.read at h
  rw [World.isFile]
  generalize w.locate (directory.append fileName).text = found at h ⊢
  rcases found with _ | _ | _ | _
  case ok.file => rfl
  all_goals cases h

theorem resolved_of_isFile (hp : p.Clean) (hl : p.lead ≠ 0)
    (h : w.isFile (p.append fileName).text = true) :
    w.resolved p.text = .ok (w.resolve p.text) ∧
      (w.resolve p.text).parts ∈ w.files.directories := by
  obtain ⟨_, _, hf⟩ := World.exists_locate_of_isFile h
  rw [append_of_isPart p isPart_fileName] at hf
  have ⟨hd, hr, _⟩ := World.locate_resolve hp hl isPart_fileName fileName_ne_up hf
  exact ⟨hr, hd⟩

-- The makefile is read from there, unless there is too much to say where that is.
theorem exists_read?_of_isFile (hp : p.Clean) (hl : p.lead ≠ 0)
    (h : w.isFile (p.append fileName).text = true)
    (ht : World.isTooLong ((w.resolve p.text).append fileName).text = false) (root : Path) :
    ∃ m, Makefile.read? w root (w.resolve p.text) = some m := by
  obtain ⟨content, _, hf⟩ := World.exists_locate_of_isFile h
  rw [append_of_isPart _ isPart_fileName] at hf ht
  have ⟨_, _, hr⟩ := World.locate_resolve hp hl isPart_fileName fileName_ne_up hf
  refine ⟨⟨root, w.resolve p.text, bindings content.read⟩, ?_⟩
  rw [Makefile.read?, append_of_isPart _ isPart_fileName, World.read, hr ht]

theorem mem_directories_of_read? (h : Makefile.read? w root (w.resolve s) = some m) :
    (w.resolve s).parts ∈ w.files.directories := by
  have hd := (resolved_of_isFile (w.resolve_clean s) Nat.one_ne_zero (isFile_of_read? h)).right
  rw [w.resolve_resolve s] at hd
  exact hd

namespace Visit

theorem eq_of_enter (h : visit.enter w = .ok (some directory)) :
    directory = w.resolve visit.path.text := by
  unfold enter at h
  split at h
  case h_1 => cases h
  case h_2 => cases h
  case h_3 =>
    split at h
    case isTrue  => cases h
    case isFalse =>
      cases hr : w.resolved visit.path.text
      case error => rw [hr] at h; cases h
      case ok d  =>
        rw [hr] at h
        cases h
        exact World.eq_of_resolved hr

theorem enter_of_refused (h : w.checkFile (visit.path.append fileName).text = .error e) :
    visit.enter w = .error e := by
  simp only [enter, h]

theorem enter_of_absent (h : w.checkFile (visit.path.append fileName).text = .ok false) :
    visit.enter w = .ok none := by
  simp only [enter, h]

theorem enter_of_tooDeep (h : w.checkFile (visit.path.append fileName).text = .ok true)
    (hd : w.nesting < visit.depth) : visit.enter w = .error .tooDeep := by
  simp only [enter, h, hd, if_true]

theorem enter_of_isThere (hp : visit.path.Clean) (hl : visit.path.lead ≠ 0)
    (h : w.checkFile (visit.path.append fileName).text = .ok true)
    (hd : visit.depth ≤ w.nesting) :
    visit.enter w = .ok (some (w.resolve visit.path.text)) := by
  have hr := (resolved_of_isFile hp hl (World.isFile_of_checkFile h)).left
  simp only [enter, h, Nat.not_lt.mpr hd, if_false, hr]
  rfl

end Visit

section Walk

theorem walk_nil : walk w root unseen [] = .ok [] := by
  rw [walk]

-- What the next visit comes to decides how the walk goes on.
theorem walk_cons (visit : Visit) (waiting : List Visit) :
    walk w root unseen (visit :: waiting) = (visit.enter w).bind fun
      | none => walk w root unseen waiting
      | some directory =>
        if directory.parts ∈ unseen then
          let unseen := without unseen directory.parts
          match Makefile.read? w root directory with
          | some m => (walk w root unseen (m.visits (visit.depth + 1) ++ waiting)).map (m :: ·)
          | none   => walk w root unseen waiting
        else walk w root unseen waiting := by
  rw [walk]
  rcases visit.enter w with _ | _ | _ <;> rfl

theorem walk_error (h : visit.enter w = .error e) :
    walk w root unseen (visit :: waiting) = .error e := by
  rw [walk_cons, h]
  rfl

theorem walk_absent (h : visit.enter w = .ok none) :
    walk w root unseen (visit :: waiting) = walk w root unseen waiting := by
  rw [walk_cons, h]
  rfl

theorem walk_read (h : visit.enter w = .ok (some directory)) (hd : directory.parts ∈ unseen)
    (hr : Makefile.read? w root directory = some m) :
    walk w root unseen (visit :: waiting) =
      (walk w root (without unseen directory.parts)
        (m.visits (visit.depth + 1) ++ waiting)).map (m :: ·) := by
  rw [walk_cons, h]
  simp only [Except.bind, hd, hr, if_true]

theorem walk_unread (h : visit.enter w = .ok (some directory)) (hd : directory.parts ∈ unseen)
    (hr : Makefile.read? w root directory = none) :
    walk w root unseen (visit :: waiting) =
      walk w root (without unseen directory.parts) waiting := by
  rw [walk_cons, h]
  simp only [Except.bind, hd, hr, if_true]

theorem walk_seen (h : visit.enter w = .ok (some directory)) (hd : directory.parts ∉ unseen) :
    walk w root unseen (visit :: waiting) = walk w root unseen waiting := by
  rw [walk_cons, h]
  simp only [Except.bind, hd, if_false]

end Walk

structure Reached (w : World) (root : Path) (unseen : List Place) (m : Makefile) : Prop where
  read  : Makefile.read? w root m.directory = some m
  clean : m.directory.Clean
  lead  : m.directory.lead = 1
  place : m.directory.parts ∈ unseen

theorem Reached.of_read? (h : Makefile.read? w root (w.resolve s) = some m)
    (hd : (w.resolve s).parts ∈ unseen) : Reached w root unseen m := by
  have he := (Makefile.eq_of_read? h).right
  exact ⟨he ▸ h, he ▸ w.resolve_clean s, he ▸ rfl, he ▸ hd⟩

theorem Reached.of_without {place : Place} (h : Reached w root (without unseen place) m) :
    Reached w root unseen m :=
  ⟨h.read, h.clean, h.lead, (List.mem_filter.mp h.place).left⟩

theorem Reached.settled (h : Reached w root unseen m) (hn : ∀ place ∈ unseen, up ∉ place) :
    m.directory.Settled where
  toClean := h.clean
  rooted  := h.lead ▸ Nat.one_ne_zero
  no_up   := hn _ h.place

theorem reached_of_mem (h : walk w root unseen waiting = .ok all) (hm : m ∈ all) :
    Reached w root unseen m := by
  -- A place that is unseen later on has been unseen from the start.
  induction unseen, waiting using walk.induct w root generalizing all
  case case1 =>
    rw [walk_nil] at h
    cases h
    cases hm
  case case2 he => rw [walk_error he] at h; cases h
  case case3 he hi => exact hi (walk_absent he ▸ h) hm
  case case4 he hd unseen first hr hi =>
    rw [walk_read he hd hr] at h
    obtain ⟨rest, hw, rfl⟩ := exists_of_map_eq_ok h
    cases hm
    case tail hm => exact (hi hw hm).of_without
    case head    =>
      cases Visit.eq_of_enter he
      exact .of_read? hr hd
  case case5 he hd unseen hr hi => exact (hi (walk_unread he hd hr ▸ h) hm).of_without
  case case6 he hd hi           => exact hi (walk_seen he hd ▸ h) hm

theorem cases_of_makefiles (h : makefiles w root = .ok all) :
    (all = [] ∧ Makefile.read? w root root = none) ∨
      ∃ first rest, all = first :: rest ∧ Makefile.read? w root root = some first ∧
        walk w root (without w.files.directories root.parts) (first.visits 1) = .ok rest := by
  unfold makefiles at h
  split at h
  case h_1 first hr =>
    obtain ⟨rest, hw, rfl⟩ := exists_of_map_eq_ok h
    exact .inr ⟨first, rest, rfl, hr, hw⟩
  case h_2 hr => exact .inl ⟨(Except.ok.inj h).symm, hr⟩

theorem reached_of_mem_makefiles (hp : w.resolve root.text = root)
    (h : makefiles w root = .ok all) (hm : m ∈ all) :
    Reached w root w.files.directories m := by
  cases cases_of_makefiles h
  case inl h => rw [h.left] at hm; cases hm
  case inr h =>
    obtain ⟨first, rest, rfl, hr, hw⟩ := h
    cases hm
    case head    =>
      rw [← hp] at hr
      exact hp ▸ .of_read? hr (mem_directories_of_read? hr)
    case tail hm => exact (reached_of_mem hw hm).of_without

theorem settled_of_mem_makefiles (hp : w.resolve root.text = root)
    (hn : ∀ place ∈ w.files.directories, up ∉ place) (h : makefiles w root = .ok all)
    (hm : m ∈ all) : m.root = root ∧ m.directory.Settled ∧ m.root.lead = m.directory.lead := by
  have hw := reached_of_mem_makefiles hp h hm
  have he := (Makefile.eq_of_read? hw.read).left
  have hl : root.lead = 1 := hp ▸ rfl
  exact ⟨he, hw.settled hn, he ▸ hl.trans hw.lead.symm⟩

theorem head?_makefiles (hp : w.resolve root.text = root) (h : makefiles w root = .ok all)
    (hm : m ∈ all) :
    ∃ first, all.head? = some first ∧ Makefile.read? w root root = some first ∧
      root.parts ∈ w.files.directories := by
  cases cases_of_makefiles h
  case inl h => rw [h.left] at hm; cases hm
  case inr h =>
    obtain ⟨first, rest, rfl, hr, _⟩ := h
    have hd := hp ▸ mem_directories_of_read? (s := root.text) (hp.symm ▸ hr)
    exact ⟨first, rfl, hr, hd⟩

theorem exists_of_load {path : String} {p : Project} (h : load w path = .ok p) :
    ∃ all, makefiles w (w.resolve path) = .ok all ∧ project w.cwd (w.resolve path) all = p := by
  obtain ⟨root, hr, hm⟩ := exists_of_bind_eq_ok h
  exact exists_of_map_eq_ok (World.eq_of_resolved hr ▸ hm)

end SourceFlags.Automake
