import SourceFlags.Proofs.Automake.Walk
import SourceFlags.Proofs.DepthFirst
import SourceFlags.Proofs.World.Steady

namespace SourceFlags.Automake

open Text SourceFlags.Path

variable {w : World} {root d p : Path} {m : Makefile} {seen ds es found ps : List Path}
variable {s word : String} {e : Error} {n room : Nat} {vs us : List Visit} {v : Visit} {q : Project}

def Lists (w : World) (root d e : Path) : Prop :=
  ∃ m, Makefile.read? w root d = some m ∧
    ∃ word ∈ m.wordsOf "SUBDIRS", word ≠ "." ∧
      w.isFile ((d.append word).append fileName).text = true ∧ w.resolve (d.append word).text = e

def Refuses (w : World) (root d : Path) (e : Errno) : Prop :=
  ∃ m, Makefile.read? w root d = some m ∧
    ∃ word ∈ m.wordsOf "SUBDIRS", word ≠ "." ∧
      w.locate ((d.append word).append fileName).text = .error e ∧ e.isAbsence = false

def meant (w : World) (ps : List Path) : List Path :=
  (ps.filter fun p => w.isFile (p.append fileName).text).map (w.resolve ·.text)

def listed (w : World) (root d : Path) : List Path :=
  ((Makefile.read? w root d).map fun m => meant w m.subdirectories).getD []

def targetsIn (w : World) (root d : Path) : List Target :=
  ((Makefile.read? w root d).map Makefile.targets).getD []

def visitsIn (w : World) (root d : Path) (depth : Nat) : List Visit :=
  ((Makefile.read? w root d).map (·.visits depth)).getD []

theorem listed_of_read? (h : Makefile.read? w root d = some m) :
    listed w root d = meant w m.subdirectories := by
  rw [listed, h, Option.map_some, Option.getD_some]

theorem listed_of_unread (h : Makefile.read? w root d = none) : listed w root d = [] := by
  rw [listed, h, Option.map_none, Option.getD_none]

theorem mem_subdirectories_iff : p ∈ m.subdirectories ↔
    ∃ word ∈ m.wordsOf "SUBDIRS", word ≠ "." ∧ m.directory.append word = p := by
  simp only [Makefile.subdirectories, List.mem_map, List.mem_filter, bne_iff_ne, and_assoc]

theorem mem_meant_iff : d ∈ meant w ps ↔
    ∃ p ∈ ps, w.isFile (p.append fileName).text = true ∧ w.resolve p.text = d := by
  simp only [meant, List.mem_map, List.mem_filter, and_assoc]

theorem mem_listed_iff {c : Path} : c ∈ listed w root d ↔ Lists w root d c := by
  constructor
  case mp =>
    intro h
    cases hr : Makefile.read? w root d
    case none => simp [listed_of_unread hr] at h
    case some m =>
      rw [listed_of_read? hr] at h
      obtain ⟨p, hp, hf, he⟩ := mem_meant_iff.mp h
      obtain ⟨word, hw, hn, hd⟩ := mem_subdirectories_iff.mp hp
      rw [(Makefile.eq_of_read? hr).right] at hd
      subst hd
      exact ⟨m, hr, word, hw, hn, hf, he⟩
  case mpr =>
    intro ⟨m, hr, word, hw, hn, hf, he⟩
    rw [listed_of_read? hr]
    rw [← (Makefile.eq_of_read? hr).right] at hf he
    exact mem_meant_iff.mpr ⟨_, mem_subdirectories_iff.mpr ⟨word, hw, hn, rfl⟩, hf, he⟩

theorem exists_resolve_of_reached (h : Relation.ReflTransGen (Lists w root) (w.resolve s) d) :
    ∃ s, w.resolve s = d := by
  cases h.cases_tail
  case inl h => exact ⟨s, h.symm⟩
  case inr h =>
    have ⟨_, _, _, _, _, _, _, _, he⟩ := h
    exact ⟨_, he⟩

section Reached

def Named (w : World) (root p : Path) : Prop :=
  ∃ d m, Relation.ReflTransGen (Lists w root) root d ∧ Makefile.read? w root d = some m ∧
    p ∈ m.subdirectories

theorem Named.exists_append (h : Named w root p) : ∃ d m word,
    Relation.ReflTransGen (Lists w root) root d ∧ Makefile.read? w root d = some m ∧
      word ∈ m.wordsOf "SUBDIRS" ∧ word ≠ "." ∧ d.append word = p := by
  obtain ⟨d, m, hd, hr, hp⟩ := h
  obtain ⟨word, hw, hn, rfl⟩ := mem_subdirectories_iff.mp hp
  exact ⟨d, m, word, hd, hr, hw, hn, by rw [(Makefile.eq_of_read? hr).right]⟩

theorem Named.clean (hs : w.resolve s = root) (h : Named w root p) : p.Clean ∧ p.lead ≠ 0 := by
  obtain ⟨d, _, word, hd, _, _, _, rfl⟩ := h.exists_append
  obtain ⟨s, rfl⟩ := exists_resolve_of_reached (hs ▸ hd)
  exact ⟨append_clean (w.resolve_clean s) word, append_lead_ne Nat.one_ne_zero word⟩

theorem Named.reached (h : Named w root p) (hf : w.isFile (p.append fileName).text = true) :
    Relation.ReflTransGen (Lists w root) root (w.resolve p.text) := by
  obtain ⟨d, m, word, hd, hr, hw, hn, rfl⟩ := h.exists_append
  exact hd.tail ⟨m, hr, word, hw, hn, hf, rfl⟩

theorem Named.refuses (h : Named w root p)
    (hc : w.checkFile (p.append fileName).text = .error e) :
    ∃ d errno, Relation.ReflTransGen (Lists w root) root d ∧ Refuses w root d errno ∧
      e = .refused errno := by
  obtain ⟨d, m, word, hd, hr, hw, hn, rfl⟩ := h.exists_append
  obtain ⟨errno, he, hl, ha⟩ := World.checkFile_eq_error_iff.mp hc
  exact ⟨d, errno, hd, ⟨m, hr, word, hw, hn, hl, ha⟩, he⟩

end Reached

section unseen

def unseen (w : World) (seen : List Path) : List Place :=
  w.files.directories.filter fun place => ⟨1, place⟩ ∉ seen

theorem mem_unseen_iff :
    (w.resolve s).parts ∈ unseen w seen ↔
      (w.resolve s).parts ∈ w.files.directories ∧ w.resolve s ∉ seen := by
  rw [unseen, List.mem_filter, decide_eq_true_iff]
  rfl

theorem unseen_congr {seen' : List Path} (h : ∀ d, d ∈ seen ↔ d ∈ seen') :
    unseen w seen = unseen w seen' := by
  simp only [unseen, h]

theorem unseen_append_append (found rest seen : List Path) :
    unseen w (found ++ rest ++ seen) = unseen w (rest ++ (found ++ seen)) :=
  unseen_congr fun d => by simp only [List.mem_append]; tauto

theorem unseen_cons_append (d : Path) (found seen : List Path) :
    unseen w (d :: found ++ seen) = unseen w (found ++ d :: seen) :=
  unseen_congr fun c => by simp only [List.mem_append, List.mem_cons]; tauto

theorem without_unseen (w : World) (s : String) (seen : List Path) :
    without (unseen w seen) (w.resolve s).parts = unseen w (w.resolve s :: seen) := by
  rw [without, unseen, List.filter_filter, unseen]
  refine List.filter_congr fun place _ => ?_
  have he : (⟨1, place⟩ : Path) = w.resolve s ↔ place = (w.resolve s).parts :=
    ⟨fun h => h ▸ rfl, fun h => h ▸ rfl⟩
  rw [Bool.eq_iff_iff]
  simp [he]

theorem unseen_append_length_le (found seen : List Path) :
    (unseen w (found ++ seen)).length ≤ (unseen w seen).length := by
  refine (List.monotone_filter_right _ fun place hp => ?_).length_le
  simp only [decide_eq_true_iff, List.mem_append] at hp ⊢
  tauto

theorem unseen_cons_length_lt (hs : w.resolve s ∉ seen)
    (hr : Makefile.read? w root (w.resolve s) = some m) :
    (unseen w (w.resolve s :: seen)).length < (unseen w seen).length := by
  rw [← without_unseen]
  exact without_length_lt (mem_unseen_iff.mpr ⟨mem_directories_of_read? hr, hs⟩)

theorem runsOut (w : World) (root : Path) :
    DepthFirst.RunsOut (listed w root) (fun d => ∃ s, w.resolve s = d)
      (fun seen => (unseen w seen).length) where
  append := unseen_append_length_le
  closed := fun _ hb =>
    have ⟨_, _, _, _, _, _, he⟩ := mem_listed_iff.mp hb
    ⟨_, he⟩
  cons := by
    rintro _ seen ⟨s, rfl⟩ hn hs
    cases hr : Makefile.read? w root (w.resolve s)
    case none   => exact absurd (listed_of_unread hr) hn
    case some m => exact unseen_cons_length_lt hs hr

end unseen

section Breaks

-- Why a search from waiting directories is broken off: somewhere below the root a look is refused,
-- or there is no room to go as deep as the directories lie within each other.
inductive Breaks (w : World) (root : Path) (room : Nat) (seen ds : List Path) : Error → Prop
  | refused {d : Path} {e : Errno} (hd : Relation.ReflTransGen (Lists w root) root d)
    (hr : Refuses w root d e) : Breaks w root room seen ds (.refused e)
  | tooDeep (h : ∀ found, ¬DepthFirst (listed w root) room seen ds found) :
    Breaks w root room seen ds .tooDeep

theorem Breaks.append_left (h : Breaks w root room seen ds e) (es : List Path) :
    Breaks w root room seen (ds ++ es) e := by
  cases h with
  | refused hd hr => exact .refused hd hr
  | tooDeep h     =>
    refine .tooDeep fun found hf => ?_
    obtain ⟨first, _, _, hf, _⟩ := hf.split
    exact h first hf

theorem Breaks.append_right (h : Breaks w root room (found ++ seen) es e)
    (hf : DepthFirst (listed w root) room seen ds found) :
    Breaks w root room seen (ds ++ es) e := by
  cases h with
  | refused hd hr => exact .refused hd hr
  | tooDeep h     =>
    refine .tooDeep fun _ hf' => ?_
    obtain ⟨first, rest, _, hfirst, hrest⟩ := hf'.split
    exact h rest (hfirst.unique hf ▸ hrest)

theorem Breaks.enter (h : Breaks w root room (d :: seen) (listed w root d) e) (hs : d ∉ seen) :
    Breaks w root (room + 1) seen [d] e := by
  cases h with
  | refused hd hr => exact .refused hd hr
  | tooDeep h     =>
    refine .tooDeep fun _ hf => ?_
    cases hf with
    | again hd      => exact hs hd
    | enter _ hb _  => exact h _ hb

end Breaks

section Passes

-- How a walk fares with what waits first: it goes through it in depth-first preorder, with nothing
-- refused, and then goes on; or it is broken off.
inductive Passes (w : World) (root : Path) (room : Nat) (seen ds : List Path)
    (vs : List Visit) : Prop
  | through (found : List Path) (hf : DepthFirst (listed w root) room seen ds found)
    (hv : ∀ v ∈ vs, ∀ e, w.checkFile (v.path.append fileName).text ≠ .error e)
    (hr : ∀ d ∈ found, ∀ e, ¬Refuses w root d e)
    (hw : ∀ later, walk w root (unseen w seen) (vs ++ later) =
      (walk w root (unseen w (found ++ seen)) later).map
        (found.filterMap (Makefile.read? w root) ++ ·))
  | broken (e : Error) (hb : Breaks w root room seen ds e)
    (hw : ∀ later, walk w root (unseen w seen) (vs ++ later) = .error e)

theorem Passes.nil : Passes w root room seen [] [] :=
  .through [] .done (by simp) (by simp) fun _ => (map_nil_append _).symm

theorem Passes.append (h : Passes w root room seen ds vs)
    (h' : ∀ found, DepthFirst (listed w root) room seen ds found →
      Passes w root room (found ++ seen) es us) :
    Passes w root room seen (ds ++ es) (vs ++ us) := by
  cases h with
  | broken e hb hw =>
    exact .broken e (hb.append_left es) fun later => by rw [List.append_assoc, hw]
  | through found hf hv hr hw =>
    cases h' found hf with
    | broken e hb hw' =>
      refine .broken e (hb.append_right hf) fun later => ?_
      rw [List.append_assoc, hw, hw']
      rfl
    | through rest hf' hv' hr' hw' =>
      refine .through (found ++ rest) (hf.append hf') ?_ ?_ fun later => ?_
      case refine_1 => exact List.forall_mem_append.mpr ⟨hv, hv'⟩
      case refine_2 => exact List.forall_mem_append.mpr ⟨hr, hr'⟩
      case refine_3 =>
        rw [List.append_assoc, hw, hw', map_append_append, unseen_append_append,
          List.filterMap_append]

theorem walk_entered {unseen : List Place} (he : v.enter w = .ok (some d)) (hd : d.parts ∈ unseen)
    (waiting : List Visit) :
    walk w root unseen (v :: waiting) =
      (walk w root (without unseen d.parts) (visitsIn w root d (v.depth + 1) ++ waiting)).map
        ((Makefile.read? w root d).toList ++ ·) := by
  cases hr : Makefile.read? w root d
  case none   => rw [walk_unread he hd hr, visitsIn, hr]; exact (map_nil_append _).symm
  case some m => rw [walk_read he hd hr, visitsIn, hr]; rfl

theorem not_refuses {depth : Nat} (e : Errno)
    (hv : ∀ v ∈ visitsIn w root d depth, ∀ e,
      w.checkFile (v.path.append fileName).text ≠ .error e) : ¬Refuses w root d e := by
  rintro ⟨m, hr, word, hw, hn, hl, ha⟩
  rw [visitsIn, hr] at hv
  have hp := mem_subdirectories_iff.mpr ⟨word, hw, hn, rfl⟩
  refine hv _ (List.mem_map.mpr ⟨_, hp, rfl⟩) (.refused e) (World.checkFile_eq_error_iff.mpr ?_)
  exact ⟨e, rfl, (Makefile.eq_of_read? hr).right ▸ hl, ha⟩

theorem Passes.enter (h : Passes w root room (d :: seen) (listed w root d)
      (visitsIn w root d (v.depth + 1)))
    (hs : w.resolve s = d) (hn : d ∉ seen) (hd : d.parts ∈ w.files.directories)
    (he : v.enter w = .ok (some d)) (hc : w.checkFile (v.path.append fileName).text = .ok true) :
    Passes w root (room + 1) seen [d] [v] := by
  subst hs
  have hu := mem_unseen_iff.mpr ⟨hd, hn⟩
  cases h with
  | broken e hb hw =>
    refine .broken e (hb.enter hn) fun later => ?_
    rw [List.singleton_append, walk_entered he hu, without_unseen, hw]
    rfl
  | through below hb hv hr hw =>
    refine .through _ (.enter hn hb .done) (by simp [hc]) ?_ fun later => ?_
    case refine_1 =>
      rw [List.append_nil]
      exact List.forall_mem_cons.mpr ⟨fun e => not_refuses e hv, hr⟩
    case refine_2 =>
      rw [List.singleton_append, walk_entered he hu, without_unseen, hw, map_append_append,
        List.append_nil, unseen_cons_append]
      cases hm : Makefile.read? w root (w.resolve s) <;> simp [hm]

theorem passes_visit (hs : w.resolve s = root) (hd : v.depth + room = w.nesting + 1)
    (hp : Named w root v.path)
    (hbelow : ∀ room', room = room' + 1 → w.resolve v.path.text ∉ seen →
      Relation.ReflTransGen (Lists w root) root (w.resolve v.path.text) →
        Passes w root room' (w.resolve v.path.text :: seen)
          (listed w root (w.resolve v.path.text))
          (visitsIn w root (w.resolve v.path.text) (v.depth + 1))) :
    Passes w root room seen (meant w [v.path]) [v] := by
  cases hc : w.checkFile (v.path.append fileName).text
  case error e =>
    obtain ⟨_, _, hd, hr, rfl⟩ := hp.refuses hc
    exact .broken _ (.refused hd hr) fun _ => walk_error (Visit.enter_of_refused hc)
  case ok isThere =>
    have hf := World.isFile_of_checkFile hc
    cases isThere
    case false =>
      have hm : meant w [v.path] = [] := by simp [meant, hf]
      rw [hm]
      refine .through [] .done (by simp [hc]) (by simp) fun later => ?_
      exact (walk_absent (Visit.enter_of_absent hc)).trans (map_nil_append _).symm
    case true =>
      have hm : meant w [v.path] = [w.resolve v.path.text] := by simp [meant, hf]
      rw [hm]
      cases room
      case zero =>
        have hn : w.nesting < v.depth := by omega
        exact .broken _ (.tooDeep nofun) fun _ => walk_error (Visit.enter_of_tooDeep hc hn)
      case succ room =>
        obtain ⟨hclean, hl⟩ := hp.clean hs
        have he := Visit.enter_of_isThere hclean hl hc (by omega)
        -- A directory that has been seen has no unseen place, so the walk passes it over.
        by_cases hn : w.resolve v.path.text ∈ seen
        case neg =>
          have hdir := (resolved_of_isFile hclean hl hf).right
          exact (hbelow room rfl hn (hp.reached hf)).enter rfl hn hdir he hc
        case pos =>
          refine .through [] (.again hn .done) (by simp [hc]) (by simp) fun later => ?_
          have hu : (w.resolve v.path.text).parts ∉ unseen w seen :=
            mt mem_unseen_iff.mp (by simp [hn])
          exact (walk_seen he hu).trans (map_nil_append _).symm

theorem meant_cons (w : World) (p : Path) (ps : List Path) :
    meant w (p :: ps) = meant w [p] ++ meant w ps := by
  rw [← List.singleton_append, meant, List.filter_append, List.map_append]
  rfl

theorem passes_visits (hs : w.resolve s = root) {depth : Nat} (hn : (unseen w seen).length ≤ n)
    (hd : depth + room = w.nesting + 1) (hp : ∀ p ∈ ps, Named w root p) :
    Passes w root room seen (meant w ps) (ps.map (⟨·, depth⟩)) := by
  -- What is below a directory has one fewer to be seen, and what comes after it has fewer waiting.
  induction n using Nat.strongRecOn generalizing seen ps depth room
  case ind n hfewer =>
    induction ps generalizing seen
    case nil => exact .nil
    case cons p ps hi =>
      obtain ⟨hp, hps⟩ := List.forall_mem_cons.mp hp
      rw [meant_cons]
      refine (passes_visit (v := ⟨p, depth⟩) hs hd hp ?below).append fun found _ => ?rest
      case rest =>
        exact hi (Nat.le_trans (unseen_append_length_le found seen) hn) hps
      case below =>
        intro room hroom hseen hreach
        cases hr : Makefile.read? w root (w.resolve p.text)
        case none   => rw [listed_of_unread hr, visitsIn, hr]; exact .nil
        case some m =>
          have hlt := Nat.lt_of_lt_of_le (unseen_cons_length_lt hseen hr) hn
          rw [listed_of_read? hr, visitsIn, hr]
          exact hfewer _ hlt (Nat.le_refl _) (by simp only; omega)
            fun q hq => ⟨_, m, hreach, hr, hq⟩

theorem passes_root (hs : w.resolve s = root) :
    Passes w root w.nesting [root] (listed w root root) (visitsIn w root root 1) := by
  cases hr : Makefile.read? w root root
  case none   => rw [listed_of_unread hr, visitsIn, hr]; exact .nil
  case some m =>
    rw [listed_of_read? hr, visitsIn, hr]
    exact passes_visits hs (Nat.le_refl _) (Nat.add_comm ..) fun q hq => ⟨root, m, .refl, hr, hq⟩

-- The root is gone through like the directories below it, but nothing is looked at before.
theorem makefiles_eq (hs : w.resolve s = root) :
    makefiles w root = (walk w root (unseen w [root]) (visitsIn w root root 1 ++ [])).map
      ((Makefile.read? w root root).toList ++ ·) := by
  have hu : without w.files.directories root.parts = unseen w [root] := by
    subst hs
    rw [← without_unseen]
    simp [unseen]
  unfold makefiles
  rw [hu, List.append_nil, visitsIn]
  cases Makefile.read? w root root
  case none   => simp [walk_nil, Except.map]
  case some m => rfl

theorem makefiles_ends (hs : w.resolve s = root) :
    (∃ found, DepthFirst (listed w root) (w.nesting + 1) [] [root] found ∧
      (∀ d ∈ found, ∀ e, ¬Refuses w root d e) ∧
      makefiles w root = .ok (found.filterMap (Makefile.read? w root))) ∨
    ∃ e, Breaks w root (w.nesting + 1) [] [root] e ∧ makefiles w root = .error e := by
  cases passes_root hs with
  | broken e hb hw =>
    refine .inr ⟨e, hb.enter List.not_mem_nil, ?_⟩
    rw [makefiles_eq hs, hw]
    rfl
  | through below hf hv hr hw =>
    refine .inl ⟨_, .enter List.not_mem_nil hf .done, ?_, ?_⟩
    case refine_1 =>
      rw [List.append_nil]
      exact List.forall_mem_cons.mpr ⟨fun e => not_refuses e hv, hr⟩
    case refine_2 =>
      rw [makefiles_eq hs, hw, walk_nil, List.append_nil, List.filterMap_cons]
      cases Makefile.read? w root root <;> simp [Except.map]

end Passes

theorem filterMap_read?_flatMap (w : World) (root : Path) (ds : List Path) :
    (ds.filterMap (Makefile.read? w root)).flatMap Makefile.targets =
      ds.flatMap (targetsIn w root) := by
  induction ds
  case nil => rfl
  case cons d ds hi =>
    rw [List.flatMap_cons, ← hi, targetsIn]
    cases hr : Makefile.read? w root d
    case none   => rw [List.filterMap_cons_none hr]; rfl
    case some m => rw [List.filterMap_cons_some hr]; rfl

theorem mem_iff_reached (h : DepthFirst (listed w root) n [] [root] found) :
    d ∈ found ↔ Relation.ReflTransGen (Lists w root) root d := by
  have hl : DepthFirst.IsNext (listed w root) = Lists w root :=
    funext fun _ => funext fun _ => propext mem_listed_iff
  rw [h.mem_iff, hl]

theorem not_breaks (h : DepthFirst (listed w root) room [] [root] found)
    (hr : ∀ d ∈ found, ∀ e, ¬Refuses w root d e) : ¬Breaks w root room [] [root] e := by
  intro hb
  cases hb with
  | refused hd hr' => exact hr _ ((mem_iff_reached h).mpr hd) _ hr'
  | tooDeep hn     => exact hn found h

-- Why no project is made of a root.
inductive BreaksOff (w : World) (path : String) : Error → Prop
  | lost (h : w.reaches path = false) : BreaksOff w path .cwdGone
  | looped (h : w.locate (w.resolve path).text = .error .tooManyLinks) :
    BreaksOff w path .linkLoop
  | searching {e : Error}
    (h : Breaks w (w.resolve path) (w.nesting + 1) [] [w.resolve path] e) : BreaksOff w path e

theorem resolved_cases (w : World) (path : String) :
    (w.reaches path = true ∧ w.locate (w.resolve path).text ≠ .error .tooManyLinks ∧
      w.resolved path = .ok (w.resolve path)) ∨
    ∃ e, BreaksOff w path e ∧ w.resolved path = .error e := by
  unfold World.resolved World.about
  split
  case isFalse hr => exact .inr ⟨_, .lost (Bool.eq_false_iff.mpr hr), rfl⟩
  case isTrue hr  =>
    split
    case h_1 hl => exact .inr ⟨_, .looped hl, rfl⟩
    case h_2 hl => exact .inl ⟨hr, hl, rfl⟩

theorem load_ends (w : World) (path : String) :
    (∃ found, DepthFirst (listed w (w.resolve path)) (w.nesting + 1) [] [w.resolve path] found ∧
      (∀ e, ¬BreaksOff w path e) ∧
      ∃ project, load w path = .ok project ∧
        project.targets = .known (found.flatMap (targetsIn w (w.resolve path)))) ∨
    ∃ e, BreaksOff w path e ∧ load w path = .error e := by
  cases resolved_cases w path
  case inr h =>
    obtain ⟨e, hb, hr⟩ := h
    exact .inr ⟨e, hb, by rw [load, hr]; rfl⟩
  case inl h =>
    obtain ⟨hr, hl, hroot⟩ := h
    have hload : load w path =
        (makefiles w (w.resolve path)).map (project w.cwd (w.resolve path)) := by
      rw [load, hroot]
      rfl
    cases makefiles_ends (w := w) (s := path) rfl
    case inr h =>
      obtain ⟨e, hb, hm⟩ := h
      exact .inr ⟨e, .searching hb, by rw [hload, hm]; rfl⟩
    case inl h =>
      obtain ⟨found, hf, hno, hm⟩ := h
      refine .inl ⟨found, hf, fun e hb => ?sound, _, by rw [hload, hm]; rfl, ?targets⟩
      case sound =>
        cases hb with
        | lost h      => exact absurd (hr.symm.trans h) (by simp)
        | looped h    => exact hl h
        | searching h => exact not_breaks hf hno h
      case targets =>
        have ht (all : List Makefile) : (project w.cwd (w.resolve path) all).targets =
            .known (all.flatMap Makefile.targets) := rfl
        rw [ht, filterMap_read?_flatMap]

theorem targets_of_load (hd : DepthFirst (listed w (w.resolve s)) n [] [w.resolve s] ds)
    (h : load w s = .ok q) : q.targets = .known (ds.flatMap (targetsIn w (w.resolve s))) := by
  cases load_ends w s
  case inr hb =>
    obtain ⟨_, _, he⟩ := hb
    exact absurd (h.symm.trans he) (by simp)
  case inl ho =>
    obtain ⟨found, hf, _, _, hq, ht⟩ := ho
    cases h.symm.trans hq
    rw [ht, hf.unique hd]

theorem breaksOff_of_load (h : load w s = .error e) : BreaksOff w s e := by
  cases load_ends w s
  case inl ho =>
    obtain ⟨_, _, _, _, hq, _⟩ := ho
    exact absurd (hq.symm.trans h) (by simp)
  case inr hb =>
    obtain ⟨_, hb, he⟩ := hb
    cases he.symm.trans h
    exact hb

theorem exists_load_iff : (∃ q, load w s = .ok q) ↔ ∀ e, ¬BreaksOff w s e := by
  cases load_ends w s
  case inl ho =>
    obtain ⟨_, _, hno, q, hq, _⟩ := ho
    exact ⟨fun _ => hno, fun _ => ⟨q, hq⟩⟩
  case inr hb =>
    obtain ⟨e, hb, he⟩ := hb
    exact ⟨fun ⟨_, hq⟩ => absurd (hq.symm.trans he) (by simp), fun hno => absurd hb (hno e)⟩

-- All directories but the root have been found by their makefiles.
theorem exists_read?_of_reached (hs : w.resolve s = root)
    (hd : Relation.ReflTransGen (Lists w root) root d) (hn : d ≠ root)
    (ht : World.isTooLong (d.append fileName).text = false) :
    ∃ m, Makefile.read? w root d = some m := by
  obtain ⟨c, hc, hl⟩ := hd.cases_tail.resolve_left hn
  obtain ⟨_, rfl⟩ := exists_resolve_of_reached (hs ▸ hc)
  obtain ⟨_, _, word, _, _, hf, rfl⟩ := hl
  exact exists_read?_of_isFile (append_clean (w.resolve_clean _) word)
    (append_lead_ne Nat.one_ne_zero word) hf ht root

-- The targets of a tree come in depth-first preorder from all directories that can be reached from
-- the root, once from each. There is such an order whatever cycles there are. A project is made if
-- and only if nothing breaks the search off.
theorem load_targets (w : World) (path : String) :
    let root := w.resolve path
    ∃ ds : List Path,
      (∀ es, (∃ n, DepthFirst (listed w root) n [] [root] es) ↔ es = ds) ∧
      ds.Nodup ∧
      (∀ d, d ∈ ds ↔ Relation.ReflTransGen (Lists w root) root d) ∧
      (∀ d ∈ ds, d ≠ root → World.isTooLong (d.append fileName).text = false →
        ∃ m, Makefile.read? w root d = some m) ∧
      (∀ project, load w path = .ok project →
        project.targets = .known (ds.flatMap (targetsIn w root))) ∧
      (∀ e, load w path = .error e → BreaksOff w path e) ∧
      ((∃ project, load w path = .ok project) ↔ ∀ e, ¬BreaksOff w path e) := by
  intro root
  have hk : ∀ d ∈ [root], ∃ s, w.resolve s = d := by simpa using ⟨path, rfl⟩
  obtain ⟨ds, hd⟩ := (runsOut w root).exists_found (Nat.le_refl (unseen w []).length) hk
  refine ⟨ds, fun es => ⟨fun ⟨_, he⟩ => he.unique hd, fun he => ⟨_, he ▸ hd⟩⟩, hd.nodup,
    fun d => mem_iff_reached hd, ?held, fun project => targets_of_load hd,
    fun e => breaksOff_of_load, exists_load_iff⟩
  case held =>
    intro d hm hn ht
    exact exists_read?_of_reached rfl ((mem_iff_reached hd).mp hm) hn ht

def barred : World :=
  { World.bare with
    files := .directory .full
      [(fileName.toList, .file (.text "SUBDIRS = s") false), (['s'], .directory ⟨true, false⟩ [])] }

example : BreaksOff barred "/" (.refused .noAccess) := by
  have htop : ((⟨1, []⟩ : Path).append fileName).text = "/Makefile.am" := by decide
  have hbelow : (((⟨1, []⟩ : Path).append "s").append fileName).text = "/s/Makefile.am" := by
    decide
  have hfile : barred.locate "/Makefile.am" = .ok (.file (.text "SUBDIRS = s") false) :=
    (World.locate_eq_ok_iff rfl (by decide) rfl (by decide) rfl).mpr rfl
  have hread : Makefile.read? barred ⟨1, []⟩ ⟨1, []⟩ =
      some ⟨⟨1, []⟩, ⟨1, []⟩, bindings "SUBDIRS = s"⟩ := by
    rw [Makefile.read?, htop, World.read_of_file hfile (by decide)]
  have hlook : barred.locate "/s/Makefile.am" = .error .noAccess := by
    have hp : barred.partsOf "/s/Makefile.am" = [[], ['s'], fileName.toList] := rfl
    rw [World.locate_of_isAbsolute rfl (by decide), hp, FileTree.locate,
      FileTree.follow_empty, FileTree.follow_directory (by decide) (by decide) rfl,
      FileTree.follow_closed (by decide) rfl]
    rfl
  refine .searching (.refused (d := ⟨1, []⟩) (barred.resolve_top ▸ .refl) ?_)
  rw [barred.resolve_top]
  exact ⟨_, hread, "s", by decide, by decide, hbelow ▸ hlook, rfl⟩

end SourceFlags.Automake
