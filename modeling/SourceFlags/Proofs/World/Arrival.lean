import Mathlib.Data.List.Perm.Subperm
import Mathlib.Data.Nat.Find
import SourceFlags.Proofs.World.Resolve

namespace SourceFlags

open Text SourceFlags.Path

namespace FileTree

inductive Holds (t : FileTree) : Trail → Prop
  | nil : Holds t []
  | cons {trail : Trail} {part : Part} {u : FileTree} (h : Holds t trail)
    (hn : names part = true) (hu : part ≠ up) (hc : (t.atEnd trail).child? part = some u)
    (hl : ∀ s, u ≠ .link s) : Holds t ((part, u) :: trail)

-- The parts lead from one trail to another. The goals of links lie at most so deep within each other.
inductive Arrives (t : FileTree) : Nat → Trail → List Part → Trail → Prop
  | nil {n : Nat} {trail : Trail} : Arrives t n trail [] trail
  | skip {n : Nat} {trail goal : Trail} {part : Part} {rest : List Part}
    (hn : names part = false) (h : Arrives t n trail rest goal) :
    Arrives t n trail (part :: rest) goal
  | up {n : Nat} {trail goal : Trail} {rest : List Part} (h : Arrives t n trail.tail rest goal) :
    Arrives t n trail (Path.up :: rest) goal
  | down {n : Nat} {trail goal : Trail} {part : Part} {rest : List Part} {u : FileTree}
    (hn : names part = true) (hu : part ≠ Path.up) (hc : (t.atEnd trail).child? part = some u)
    (hl : ∀ s, u ≠ .link s) (h : Arrives t n ((part, u) :: trail) rest goal) :
    Arrives t n trail (part :: rest) goal
  | link {n : Nat} {trail mid goal : Trail} {part : Part} {rest : List Part} {s : String}
    (hn : names part = true) (hu : part ≠ Path.up)
    (hc : (t.atEnd trail).child? part = some (.link s))
    (hg : Arrives t n (goalStart trail s) (goalParts s) mid)
    (h : Arrives t (n + 1) mid rest goal) : Arrives t (n + 1) trail (part :: rest) goal

variable {t u : FileTree} {n m : Nat} {trail trail' mid goal : Trail} {part part' : Part}
variable {parts rest : List Part} {place : Place} {s s' : String}

theorem names_up : names up = true := by
  decide

section Holds

theorem Holds.tail (h : t.Holds trail) : t.Holds trail.tail := by
  cases h
  case nil          => exact .nil
  case cons h _ _ _ _ => exact h

theorem Holds.goalStart (h : t.Holds trail) (s : String) : t.Holds (goalStart trail s) := by
  unfold FileTree.goalStart
  split
  case isTrue  => exact .nil
  case isFalse => exact h

theorem find?_append (t : FileTree) (place : Place) (part : Part) :
    t.find? (place ++ [part]) = (t.find? place).bind (·.child? part) := by
  induction place generalizing t
  case nil =>
    rw [List.nil_append, find?, find?, Option.bind_some]
    cases t.child? part <;> rfl
  case cons p place hi =>
    rw [List.cons_append, find?, find?]
    cases t.child? p
    case none   => rfl
    case some u => exact hi u

theorem Holds.find? (h : t.Holds trail) : t.find? (placeOf trail) = some (t.atEnd trail) := by
  induction h
  case nil => rfl
  case cons hc _ hi =>
    rw [placeOf_cons, find?_append, hi, Option.bind_some, hc]
    rfl

theorem Holds.eq_of_placeOf (h : t.Holds trail) (h' : t.Holds trail')
    (he : placeOf trail = placeOf trail') : trail = trail' := by
  induction h generalizing trail'
  case nil =>
    cases h'
    case nil  => rfl
    case cons => simp [placeOf] at he
  case cons hc _ hi =>
    cases h'
    case nil => simp [placeOf] at he
    case cons h' _ _ hc' _ =>
      rw [placeOf_cons, placeOf_cons] at he
      obtain ⟨hp, hl⟩ := List.append_inj' he rfl
      cases hi h' hp
      cases hl
      cases hc.symm.trans hc'
      rfl

theorem isDirectory_of_child? (h : t.child? part = some u) : t.isDirectory = true := by
  cases t
  case directory => rfl
  all_goals contradiction

theorem Holds.mem_directories (h : t.Holds trail) (hc : (t.atEnd trail).child? part = some u) :
    placeOf trail ∈ t.directories :=
  mem_directories_of_find? h.find? (isDirectory_of_child? hc)

theorem Holds.follow_append (h : t.Holds trail) (hd : (t.atEnd trail).isDirectory = true)
    (links : Nat) (rest : List Part) :
    t.follow links [] (placeOf trail ++ rest) = t.follow links trail rest := by
  induction h generalizing rest
  case nil => rfl
  case cons u _ hn hu hc _ hi =>
    rw [placeOf_cons, List.append_assoc, List.singleton_append, hi (isDirectory_of_child? hc)]
    cases u
    case directory => exact follow_directory hn hu hc
    all_goals contradiction

end Holds

section Arrives

theorem Arrives.holds (h : t.Arrives n trail parts goal) (ht : t.Holds trail) : t.Holds goal := by
  induction h
  case nil                      => exact ht
  case skip hi                  => exact hi ht
  case up hi                    => exact hi ht.tail
  case down hn hu hc hl _ hi    => exact hi (ht.cons hn hu hc hl)
  case link hg hi               => exact hi (hg (ht.goalStart _))

theorem Arrives.mono (h : t.Arrives n trail parts goal) (hm : n ≤ m) :
    t.Arrives m trail parts goal := by
  induction h generalizing m
  case nil                   => exact .nil
  case skip hn _ hi          => exact .skip hn (hi hm)
  case up hi                 => exact .up (hi hm)
  case down hn hu hc hl _ hi => exact .down hn hu hc hl (hi hm)
  case link hn hu hc _ _ hg hi =>
    cases m
    case zero   => contradiction
    case succ m => exact .link hn hu hc (hg (Nat.le_of_succ_le_succ hm)) (hi hm)

theorem Arrives.split (h : t.Arrives n trail (parts ++ rest) goal) :
    ∃ mid, t.Arrives n trail parts mid ∧ t.Arrives n mid rest goal := by
  induction parts generalizing trail
  case nil => exact ⟨trail, .nil, h⟩
  case cons part parts hi =>
    cases h with
    | skip hn h          => exact (hi h).imp fun _ => .imp_left (.skip hn)
    | up h               => exact (hi h).imp fun _ => .imp_left .up
    | down hn hu hc hl h => exact (hi h).imp fun _ => .imp_left (.down hn hu hc hl)
    | link hn hu hc hg h => exact (hi h).imp fun _ => .imp_left (.link hn hu hc hg)

theorem Arrives.unique (h : t.Arrives n trail parts goal) (h' : t.Arrives m trail parts trail') :
    goal = trail' := by
  induction h generalizing m trail'
  case nil => cases h'; rfl
  case skip hn _ hi =>
    cases h' with
    | skip _ h'      => exact hi h'
    | up             => exact absurd names_up (by simp [hn])
    | down hn'       => simp [hn] at hn'
    | link hn'       => simp [hn] at hn'
  case up hi =>
    cases h' with
    | skip hn _      => exact absurd names_up (by simp [hn])
    | up h'          => exact hi h'
    | down _ hu      => exact absurd rfl hu
    | link _ hu      => exact absurd rfl hu
  case down hn hu hc hl _ hi =>
    cases h' with
    | skip hn'       => simp [hn] at hn'
    | up             => exact absurd rfl hu
    | down _ _ hc' _ h' =>
      cases hc.symm.trans hc'
      exact hi h'
    | link _ _ hc'   => exact absurd (Option.some.inj (hc.symm.trans hc')) (hl _)
  case link hn hu hc _ _ hg hi =>
    cases h' with
    | skip hn'       => simp [hn] at hn'
    | up             => exact absurd rfl hu
    | down _ _ hc' hl => exact absurd (Option.some.inj (hc'.symm.trans hc)) (hl _)
    | link _ _ hc' hg' h' =>
      cases hc.symm.trans hc'
      cases hg hg'
      exact hi h'

-- How a way that can be followed to its end goes on after its first part.
inductive GoesOn (t : FileTree) (n : Nat) (trail : Trail) (part : Part) (rest : List Part)
    (goal : Trail) : Prop
  | skip (hn : names part = false) (h : t.follow n trail rest = .ok goal) :
    GoesOn t n trail part rest goal
  | up (hu : part = Path.up) (h : t.follow n trail.tail rest = .ok goal) :
    GoesOn t n trail part rest goal
  | down {u : FileTree} (hn : names part = true) (hu : part ≠ Path.up)
    (hc : (t.atEnd trail).child? part = some u) (hl : ∀ s, u ≠ .link s)
    (h : t.follow n ((part, u) :: trail) rest = .ok goal) : GoesOn t n trail part rest goal
  | link {m : Nat} {s : String} (hm : n = m + 1) (hn : names part = true) (hu : part ≠ Path.up)
    (hc : (t.atEnd trail).child? part = some (.link s))
    (h : t.follow m (goalStart trail s) (goalParts s ++ rest) = .ok goal) :
    GoesOn t n trail part rest goal

theorem goesOn_of_follow (h : t.follow n trail (part :: rest) = .ok goal) :
    t.GoesOn n trail part rest goal := by
  rw [follow] at h
  split at h
  case isTrue => cases h
  split at h
  case isTrue hn => exact .skip (by simpa using hn) h
  case isFalse hn =>
    have hn : names part = true := by simpa using hn
    split at h
    case isTrue hu  => exact .up hu h
    case isFalse hu =>
      split at h
      case h_1    => cases h
      case h_2 hc => exact .down hn hu hc (by simp) h
      case h_3 hc =>
        -- A file is the end of the way.
        split at h
        case isFalse   => cases h
        case isTrue he => exact .down hn hu hc (by simp) (by rw [List.isEmpty_iff.mp he, follow, h])
      case h_4 s hc =>
        cases n
        case zero   => cases h
        case succ n => exact .link rfl hn hu hc h

theorem exists_arrives_of_follow (h : t.follow n trail (parts ++ rest) = .ok goal) :
    ∃ mid k, k ≤ n ∧ t.Arrives n trail parts mid ∧ t.follow k mid rest = .ok goal := by
  -- The goal of a link may have any number of parts, but leaves fewer links to be followed.
  induction n using Nat.strongRecOn generalizing trail parts
  case ind n hfewer =>
    induction parts generalizing trail
    case nil => exact ⟨trail, n, Nat.le_refl n, .nil, h⟩
    case cons part parts hi =>
      rw [List.cons_append] at h
      cases goesOn_of_follow h with
      | skip hn h =>
        obtain ⟨mid, k, hk, ha, hf⟩ := hi h
        exact ⟨mid, k, hk, .skip hn ha, hf⟩
      | up hu h =>
        obtain ⟨mid, k, hk, ha, hf⟩ := hi h
        exact ⟨mid, k, hk, hu ▸ .up ha, hf⟩
      | down hn hu hc hl h =>
        obtain ⟨mid, k, hk, ha, hf⟩ := hi h
        exact ⟨mid, k, hk, .down hn hu hc hl ha, hf⟩
      | @link m _ hm hn hu hc hr =>
        subst hm
        rw [← List.append_assoc] at hr
        obtain ⟨mid, k, hk, ha, hf⟩ := hfewer m (Nat.lt_succ_self m) hr
        obtain ⟨_, hg, hr⟩ := ha.split
        exact ⟨mid, k, Nat.le_succ_of_le hk, .link hn hu hc hg (hr.mono (Nat.le_succ m)), hf⟩

theorem follow_mono (h : t.follow n trail parts = .ok goal) (hm : n ≤ m) :
    t.follow m trail parts = .ok goal := by
  induction n, trail, parts using follow.induct t generalizing m
  case case1 =>
    rw [follow] at h ⊢
    exact h
  all_goals rw [follow] at h ⊢
  case case2 ho => simp [ho] at h
  case case3 ho hn hi => simpa [ho, hn] using hi (by simpa [ho, hn] using h) hm
  case case4 ho hn hi => simpa [ho, hn] using hi (by simpa [ho, hn] using h) hm
  case case5 ho hn hu hc => simp [ho, hn, hu, hc] at h
  case case6 ho hn hu access children hc hi =>
    simpa [ho, hn, hu, hc] using hi (by simpa [ho, hn, hu, hc] using h) hm
  case case7 ho hn hu content executable hc he => simpa [ho, hn, hu, hc, he] using h
  case case8 ho hn hu content executable hc he => simp [ho, hn, hu, hc, he] at h
  case case9 ho hn hu goal' hc => simp [ho, hn, hu, hc] at h
  case case10 ho hn hu goal' hc links hi =>
    cases m
    case zero   => contradiction
    case succ m =>
      have hi := hi (by simpa [ho, hn, hu, hc] using h) (Nat.le_of_succ_le_succ hm)
      simpa [ho, hn, hu, hc] using hi

end Arrives

section Links

mutual

def links : FileTree → List Place
  | .file ..              => []
  | .link _               => [[]]
  | .directory _ children => linksIn children

def linksIn : List (Part × FileTree) → List Place
  | []              => []
  | (part, t) :: ts => t.links.map (part :: ·) ++ linksIn ts

end

mutual

theorem links_length : (t : FileTree) → t.links.length = t.countLinks
  | .file ..              => rfl
  | .link _               => rfl
  | .directory _ children => linksIn_length children

theorem linksIn_length : (ts : List (Part × FileTree)) → (linksIn ts).length = countLinksIn ts
  | []              => rfl
  | (part, t) :: ts => by
    rw [linksIn, countLinksIn, List.length_append, List.length_map, links_length t,
      linksIn_length ts]

end

theorem mem_linksIn_of_lookup {children : List (Part × FileTree)}
    (h : children.lookup part = some u) (hp : place ∈ u.links) :
    part :: place ∈ linksIn children := by
  induction children
  case nil => contradiction
  case cons c children hi =>
    rw [linksIn, List.mem_append]
    rw [List.lookup_cons] at h
    split at h
    case h_1 he =>
      rw [beq_iff_eq.mp he]
      exact .inl <| List.mem_map.mpr ⟨place, Option.some.inj h ▸ hp, rfl⟩
    case h_2 => exact .inr (hi h)

theorem mem_links_of_find? (h : t.find? place = some (.link s)) : place ∈ t.links := by
  induction place generalizing t
  case nil =>
    cases Option.some.inj h
    exact List.mem_singleton_self _
  case cons part place hi =>
    rw [find?] at h
    split at h
    case h_2 => cases h
    case h_1 c hc =>
      cases t
      case directory => exact mem_linksIn_of_lookup (lookup_of_child? hc) (hi h)
      all_goals contradiction

structure IsLink (t : FileTree) (trail : Trail) (part : Part) (s : String) : Prop where
  holds : t.Holds trail
  child : (t.atEnd trail).child? part = some (.link s)

theorem IsLink.mem_links (h : t.IsLink trail part s) : placeOf trail ++ [part] ∈ t.links := by
  refine mem_links_of_find? (s := s) ?_
  rw [find?_append, h.holds.find?, Option.bind_some, h.child]

theorem IsLink.eq_of_place (h : t.IsLink trail part s) (h' : t.IsLink trail' part' s')
    (he : placeOf trail ++ [part] = placeOf trail' ++ [part']) : trail = trail' ∧ s = s' := by
  obtain ⟨ht, hp⟩ := List.append_inj' he rfl
  cases h.holds.eq_of_placeOf h'.holds ht
  cases hp
  cases h.child.symm.trans h'.child
  exact ⟨rfl, rfl⟩

def Solves (t : FileTree) (n : Nat) (trail : Trail) (s : String) : Prop :=
  ∃ goal, t.Arrives n (goalStart trail s) (goalParts s) goal

theorem Solves.exists_least (h : t.Solves n trail s) :
    ∃ k ≤ n, t.Solves k trail s ∧ ∀ i < k, ¬t.Solves i trail s := by
  classical
  have hs : ∃ k, t.Solves k trail s := ⟨n, h⟩
  exact ⟨Nat.find hs, Nat.find_min' hs h, Nat.find_spec hs, fun _ => Nat.find_min hs⟩

-- Places of different links whose goals all lead at least so deep. So they are passed while no goal
-- is resolved within itself.
structure AreDeep (t : FileTree) (n : Nat) (places : List Place) : Prop where
  nodup : places.Nodup
  deep  : ∀ place ∈ places, ∃ trail part s, t.IsLink trail part s ∧
    place = placeOf trail ++ [part] ∧ ∀ k < n, ¬t.Solves k trail s

variable {places : List Place} {k depth : Nat} {known : Known}

theorem AreDeep.not_mem (h : t.AreDeep n places) (hl : t.IsLink trail part s)
    (hs : t.Solves k trail s) (hk : k < n) : placeOf trail ++ [part] ∉ places := by
  intro hm
  have ⟨trail', part', s', hl', he, hd⟩ := h.deep _ hm
  obtain ⟨rfl, rfl⟩ := hl.eq_of_place hl' he
  exact hd k hk hs

theorem AreDeep.cons (h : t.AreDeep n places) (hl : t.IsLink trail part s)
    (hs : t.Solves k trail s) (hk : k < n) (hmin : ∀ i < k, ¬t.Solves i trail s) :
    t.AreDeep k ((placeOf trail ++ [part]) :: places) where
  nodup := List.nodup_cons.mpr ⟨h.not_mem hl hs hk, h.nodup⟩
  deep  := by
    refine List.forall_mem_cons.mpr ⟨⟨trail, part, s, hl, rfl, hmin⟩, fun place hp => ?_⟩
    have ⟨trail', part', s', hl', he, hd⟩ := h.deep place hp
    exact ⟨trail', part', s', hl', he, fun i hi => hd i (Nat.lt_trans hi hk)⟩

theorem AreDeep.length_le (h : t.AreDeep n places) : places.length ≤ t.countLinks := by
  rw [← links_length]
  refine (List.Nodup.subperm h.nodup fun place hp => ?_).length_le
  have ⟨_, _, _, hl, he, _⟩ := h.deep place hp
  exact he ▸ hl.mem_links

-- A link whose goal leads less deep than all goals that are being resolved can be resolved in turn,
-- and there is room for that, since there are more links than these.
theorem AreDeep.enter (h : t.AreDeep (n + 1) places) (hl : t.IsLink trail part s)
    (hg : t.Arrives n (goalStart trail s) (goalParts s) mid)
    (hd : t.countLinks ≤ depth + places.length) :
    ∃ k depth', depth = depth' + 1 ∧ k < n + 1 ∧
      t.Arrives k (goalStart trail s) (goalParts s) mid ∧
      t.AreDeep k ((placeOf trail ++ [part]) :: places) ∧
      t.countLinks ≤ depth' + ((placeOf trail ++ [part]) :: places).length := by
  have ⟨k, hk, hs, hmin⟩ := Solves.exists_least ⟨mid, hg⟩
  have hp := h.cons hl hs (Nat.lt_succ_of_le hk) hmin
  have hlen := hp.length_le
  have ⟨mid', hg'⟩ := hs
  rw [List.length_cons] at hlen ⊢
  exact ⟨k, depth - 1, by omega, Nat.lt_succ_of_le hk, hg'.unique hg ▸ hg', hp, by omega⟩

def IsSound (t : FileTree) (known : Known) : Prop :=
  ∀ trail part s goal, t.IsLink trail part s →
    known.lookup (placeOf trail ++ [part]) = some goal →
      ∃ n, t.Arrives n (goalStart trail s) (goalParts s) goal

theorem IsSound.nil : t.IsSound [] :=
  fun _ _ _ _ _ h => nomatch h

theorem IsSound.cons (h : t.IsSound known) (hl : t.IsLink trail part s)
    (hg : t.Arrives n (goalStart trail s) (goalParts s) mid) :
    t.IsSound ((placeOf trail ++ [part], mid) :: known) := by
  intro trail' part' s' goal hl' hk
  rw [List.lookup_cons] at hk
  split at hk
  case h_2 => exact h trail' part' s' goal hl' hk
  case h_1 he =>
    obtain ⟨rfl, rfl⟩ := hl'.eq_of_place hl (beq_iff_eq.mp he)
    cases hk
    exact ⟨n, hg⟩

theorem resolve?_up :
    t.resolve? depth known trail (up :: rest) = t.resolve? depth known trail.tail rest := by
  rw [resolve?]
  simp [names_up]

theorem resolve?_known (hn : names part = true) (hu : part ≠ up)
    (hc : (t.atEnd trail).child? part = some (.link s))
    (hk : known.lookup (placeOf trail ++ [part]) = some mid) :
    t.resolve? depth known trail (part :: rest) = t.resolve? depth known mid rest := by
  rw [← placeOf_cons part (.link s)] at hk
  rw [resolve?]
  simp [hn, hu, hc, hk]

theorem resolve?_link {known' : Known} (hn : names part = true) (hu : part ≠ up)
    (hc : (t.atEnd trail).child? part = some (.link s))
    (hk : known.lookup (placeOf trail ++ [part]) = none)
    (hg : t.resolve? depth known (goalStart trail s) (goalParts s) = some (mid, known')) :
    t.resolve? (depth + 1) known trail (part :: rest) =
      t.resolve? (depth + 1) ((placeOf trail ++ [part], mid) :: known') mid rest := by
  rw [← placeOf_cons part (.link s)] at hk ⊢
  rw [resolve?]
  simp [hn, hu, hc, hk, hg]

-- Resolving arrives where the parts lead, as long as it may go deeper than through all the links
-- that are being resolved.
theorem Arrives.resolve? (h : t.Arrives n trail parts goal) (ht : t.Holds trail)
    (hk : t.IsSound known) (hp : t.AreDeep n places)
    (hd : t.countLinks ≤ depth + places.length) :
    ∃ known', t.resolve? depth known trail parts = some (goal, known') ∧ t.IsSound known' := by
  induction n using Nat.strongRecOn generalizing trail parts goal depth known places
  case ind n hn =>
    induction parts generalizing trail depth known
    case nil =>
      cases h
      exact ⟨known, by rw [FileTree.resolve?], hk⟩
    case cons part parts hi =>
      cases h with
      | skip hn h =>
        rw [resolve?_skip hn]
        exact hi h ht hk hd
      | up h =>
        rw [resolve?_up]
        exact hi h ht.tail hk hd
      | @down _ _ _ _ _ u hn hu hc hl h =>
        have hg : ∀ s, (t.atEnd trail).child? part ≠ some (.link s) :=
          fun s hs => hl s (Option.some.inj (hc.symm.trans hs))
        rw [resolve?_name hn hu hg, hc, Option.getD_some]
        exact hi h (ht.cons hn hu hc hl) hk hd
      | @link n _ mid _ _ _ s hn' hu hc hg h =>
        have hl : t.IsLink trail part s := ⟨ht, hc⟩
        cases hs : known.lookup (placeOf trail ++ [part])
        case some mid' =>
          obtain ⟨_, hg'⟩ := hk _ _ _ _ hl hs
          rw [hg'.unique hg] at hs
          rw [resolve?_known hn' hu hc hs]
          exact hi h (hg.holds (ht.goalStart s)) hk hd
        case none =>
          -- No goal that is being resolved goes as deep, so the link is none of those.
          obtain ⟨k, depth, rfl, hkn, hg', hp', hd'⟩ := hp.enter hl hg hd
          obtain ⟨known', hr, hk'⟩ := hn k hkn hg' (ht.goalStart s) hk hp' hd'
          rw [resolve?_link hn' hu hc hs hr]
          exact hi h (hg.holds (ht.goalStart s)) (hk'.cons hl hg) hd

theorem resolve_of_arrives (h : t.Arrives n [] parts trail) : t.resolve parts = placeOf trail := by
  have hp : t.AreDeep n [] := ⟨List.nodup_nil, nofun⟩
  have ⟨_, hr, _⟩ := h.resolve? .nil .nil hp (Nat.le_refl _)
  rw [resolve, hr]

end Links

theorem locate_eq_ok_iff_follow :
    t.locate parts = .ok u ↔ ∃ goal, t.follow maxLinks [] parts = .ok goal ∧ t.atEnd goal = u := by
  rw [locate]
  cases t.follow maxLinks [] parts <;> simp [Except.map]

theorem locate_replicate (t : FileTree) (n : Nat) (parts : List Part) :
    t.locate (List.replicate n [] ++ parts) = t.locate parts := by
  induction n
  case zero      => rfl
  case succ n hi => rw [← hi, locate, List.replicate_succ, List.cons_append, follow_empty, locate]

theorem exists_child_of_follow (hn : names part = true) (hu : part ≠ up)
    (h : t.follow n trail [part] = .ok goal) : ∃ u, (t.atEnd trail).child? part = some u := by
  refine Option.ne_none_iff_exists'.mp fun hc => ?_
  cases ho : (t.atEnd trail).isClosed
  case false => rw [follow_absent hn hu ho hc] at h; cases h
  case true  => rw [follow_closed (isEmpty_of_names hn) ho] at h; cases h

theorem locate_resolve (hn : names part = true) (hu : part ≠ up)
    (h : t.locate (parts ++ [part]) = .ok u) :
    t.resolve parts ∈ t.directories ∧ (∃ d, t.locate (t.resolve parts) = .ok d) ∧
      t.locate (t.resolve parts ++ [part]) = .ok u := by
  have ⟨goal, hf, hg⟩ := locate_eq_ok_iff_follow.mp h
  have ⟨mid, k, hk, ha, hf⟩ := exists_arrives_of_follow hf
  have ⟨_, hc⟩ := exists_child_of_follow hn hu hf
  have hm := ha.holds .nil
  rw [resolve_of_arrives ha]
  have hd := hm.follow_append (isDirectory_of_child? hc) maxLinks
  refine ⟨hm.mem_directories hc, ?directory, locate_eq_ok_iff_follow.mpr ⟨goal, ?_, hg⟩⟩
  case directory =>
    rw [← List.append_nil (placeOf mid)]
    exact ⟨t.atEnd mid, locate_eq_ok_iff_follow.mpr ⟨mid, by rw [hd, follow], rfl⟩⟩
  rw [hd]
  exact follow_mono hf hk

end FileTree

namespace World

variable {w : World} {p : Path} {part : Part} {u : FileTree}

theorem resolve_parts (h : p.Clean) (hl : p.lead ≠ 0) :
    (w.resolve p.text).parts = w.files.resolve p.parts := by
  rw [resolve, ← FileTree.resolve_filter, filter_names_partsOf h hl]

theorem child_clean (hp : p.Clean) (hn : IsPart part) : (p.child part).Clean :=
  ⟨hp.lead_le, List.forall_mem_append.mpr ⟨hp.parts, by simpa using hn⟩⟩

theorem locate_text (hp : p.Clean) (hl : p.lead ≠ 0) (ht : isTooLong p.text = false) :
    w.locate p.text = w.files.locate p.parts := by
  have ha := hp.isAbsolute_text hl
  have hs : p.chars = List.replicate p.lead '/' ++ join ['/'] p.parts := by
    simp [Path.chars, hl]
  rw [locate_of_isAbsolute ha ht, partsOf, if_pos ha, Path.text, String.toList_ofList, hs,
    splitOn_replicate, FileTree.locate_replicate]
  by_cases hn : p.parts = []
  case pos => rw [hn]; exact w.files.locate_replicate 1 []
  case neg => rw [splitOn_join (fun part hm => (hp.parts part hm).no_slash) hn]

theorem isTooLong_of_locate {path : String} (h : w.locate path = .ok u) :
    isTooLong path = false := by
  unfold locate at h
  split at h
  case isTrue     => cases h
  case isFalse hn => exact Bool.eq_false_iff.mpr hn

-- What can be reached in a directory can be reached where the directory's path resolves to, unless
-- that path is too long, and a directory of the tree stands there.
theorem locate_resolve (hp : p.Clean) (hl : p.lead ≠ 0) (hn : IsPart part) (hu : part ≠ up)
    (h : w.locate (p.child part).text = .ok u) :
    (w.resolve p.text).parts ∈ w.files.directories ∧
      w.resolved p.text = .ok (w.resolve p.text) ∧
      (isTooLong ((w.resolve p.text).child part).text = false →
        w.locate ((w.resolve p.text).child part).text = .ok u) := by
  have hr := w.resolve_clean p.text
  rw [locate_text (child_clean hp hn) hl (isTooLong_of_locate h)] at h
  have ⟨hm, ⟨d, hd⟩, hf⟩ := FileTree.locate_resolve hn.names hu h
  rw [← resolve_parts hp hl] at hm hd hf
  refine ⟨hm, ?resolved, fun ht => ?_⟩
  case resolved =>
    have ha : w.reaches p.text = true := by simp [reaches, hp.isAbsolute_text hl]
    rw [resolved, about_of_reaches ha]
    cases ht : isTooLong (w.resolve p.text).text
    case true  => simp [locate, ht]
    case false => rw [locate_text hr Nat.one_ne_zero ht, hd]
  rw [locate_text (child_clean hr hn) Nat.one_ne_zero ht]
  exact hf

end World

end SourceFlags
