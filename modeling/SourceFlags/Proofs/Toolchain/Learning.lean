import Mathlib.Data.List.Nodup
import SourceFlags.Proofs.Toolchain.Growth

namespace SourceFlags

namespace Facts

structure Keeps (f g : Facts) : Prop extends Grows f g where
  options     : f.options.names <+: g.options.names
  version     : Probe.isFilled f.version = true → g.version = f.version
  target      : Probe.isFilled f.target = true → g.target = f.target
  installRoot : Probe.isFilled f.installRoot = true → g.installRoot = f.installRoot

structure Tidy (f : Facts) : Prop where
  paths       : ∀ language, (f.paths language).Nodup
  symbolFiles : f.symbolFiles.Nodup
  headers     : ∀ file ∈ f.symbolFiles, ∃ path ∈ f.paths Language.cxx.name,
    ∃ header ∈ Toolchain.compatHeaders, file = Path.joinText path header

structure Learns (w : World) (f g : Facts) : Prop extends Keeps f g where
  searchable : ∀ language, ∀ path ∈ g.paths language,
    path ∈ f.paths language ∨ w.isSearchable path = true
  tidy       : f.Tidy → g.Tidy

variable {w : World} {f g k : Facts} {language path : String}

theorem Adds.keeps (h : f.Adds g) : f.Keeps g where
  toGrows     := h.toGrows
  options     := h.options ▸ List.prefix_refl _
  version     := fun _ => h.version
  target      := fun _ => h.target
  installRoot := fun _ => h.installRoot

theorem Keeps.trans (h₁ : f.Keeps g) (h₂ : g.Keeps k) : f.Keeps k where
  toGrows     := h₁.toGrows.trans h₂.toGrows
  options     := h₁.options.trans h₂.options
  version     := fun h => (h₂.version (h₁.version h ▸ h)).trans (h₁.version h)
  target      := fun h => (h₂.target (h₁.target h ▸ h)).trans (h₁.target h)
  installRoot := fun h => (h₂.installRoot (h₁.installRoot h ▸ h)).trans (h₁.installRoot h)

theorem ofExecutable_tidy (executable : String) : (ofExecutable executable).Tidy where
  paths       := fun _ => List.nodup_nil
  symbolFiles := List.nodup_nil
  headers     := fun _ h => absurd h List.not_mem_nil

namespace Learns

theorem refl (w : World) (f : Facts) : f.Learns w f where
  toKeeps    := (Adds.refl f).keeps
  searchable := fun _ _ h => .inl h
  tidy       := id

theorem trans (h₁ : f.Learns w g) (h₂ : g.Learns w k) : f.Learns w k where
  toKeeps    := h₁.toKeeps.trans h₂.toKeeps
  searchable := fun language path h => (h₂.searchable language path h).elim
    (h₁.searchable language path) .inr
  tidy       := fun h => h₂.tidy (h₁.tidy h)

theorem of_keeps (h : f.Keeps g) (hp : g.paths = f.paths) (hs : g.symbolFiles = f.symbolFiles) :
    f.Learns w g where
  toKeeps    := h
  searchable := fun _ _ hm => .inl (hp ▸ hm)
  tidy       := fun ht =>
    ⟨fun l => hp ▸ ht.paths l, hs ▸ ht.symbolFiles, fun s hm => hp ▸ ht.headers s (hs ▸ hm)⟩

-- A condition on facts that survives growing may be used at each step of a fold.
theorem foldl {α : Type} {step : Facts → α → Facts} {P : Facts → Prop} {l : List α}
    (hP : ∀ f g : Facts, f.Grows g → P f → P g)
    (h : ∀ f, P f → ∀ a ∈ l, f.Learns w (step f a)) (hf : P f) : f.Learns w (l.foldl step f) := by
  induction l generalizing f
  case nil => exact refl w f
  case cons a l hi =>
    have ha := h f hf a List.mem_cons_self
    refine ha.trans <| hi (fun f hf b hb => h f hf b <| List.mem_cons_of_mem a hb) ?_
    exact hP _ _ ha.toGrows hf

end Learns

theorem Tidy.grow (h : f.Tidy) (hg : f.Grows g) (hp : ∀ language, (g.paths language).Nodup)
    (hs : g.symbolFiles = f.symbolFiles) : g.Tidy where
  paths       := hp
  symbolFiles := hs ▸ h.symbolFiles
  headers     := fun file hf =>
    have ⟨path, hm, hh⟩ := h.headers file (hs ▸ hf)
    ⟨path, (hg.paths _).subset hm, hh⟩

theorem paths_addIncludePath (f : Facts) (language path other : String) :
    (f.addIncludePath language path).2.paths other =
      if other = language ∧ path ∉ f.paths language then f.paths other ++ [path]
      else f.paths other := by
  by_cases hp : path ∈ f.paths language
  case pos => simp [addIncludePath, appendNew?, hp]
  case neg =>
    have ha : f.addIncludePath language path = (true,
      { f with includePaths := f.includePaths.put language (f.paths language ++ [path]) }) := by
      simp [addIncludePath, appendNew?, hp]
    by_cases ho : other = language
    case pos =>
      rw [if_pos ⟨ho, hp⟩, ha, ho]
      simp [paths, Table.get?_put_self]
    case neg =>
      rw [if_neg fun h => ho h.left, ha]
      simp [paths, Table.get?_put_of_ne _ ho]

theorem symbolFiles_addIncludePath (f : Facts) (language path : String) :
    (f.addIncludePath language path).2.symbolFiles = f.symbolFiles := by
  simp only [addIncludePath]
  split <;> rfl

theorem mem_paths_addIncludePath (f : Facts) (language path : String) :
    path ∈ (f.addIncludePath language path).2.paths language := by
  rw [paths_addIncludePath]
  by_cases hp : path ∈ f.paths language <;> simp [hp]

theorem addIncludePath_nodup (h : f.Tidy) (language path other : String) :
    ((f.addIncludePath language path).2.paths other).Nodup := by
  rw [paths_addIncludePath]
  split
  case isTrue hn  => exact (h.paths other).append (List.nodup_singleton _) (by simp_all)
  case isFalse hn => exact h.paths other

theorem addIncludePath_learns (f : Facts) (language : String) (h : w.isSearchable path = true) :
    f.Learns w (f.addIncludePath language path).2 where
  toKeeps    := (f.addIncludePath_adds language path).keeps
  tidy       := fun ht => ht.grow (f.addIncludePath_adds language path).toGrows
    (addIncludePath_nodup ht language path) (f.symbolFiles_addIncludePath language path)
  searchable := fun other p hp => by
    rw [paths_addIncludePath] at hp
    split at hp
    case isFalse => exact .inl hp
    case isTrue =>
      cases List.mem_append.mp hp
      case inl hm => exact .inl hm
      case inr hm => exact .inr (List.mem_singleton.mp hm ▸ h)

theorem symbolFiles_addSymbolFile (f : Facts) (file : String) :
    (f.addSymbolFile file).2.symbolFiles =
      if file ∈ f.symbolFiles then f.symbolFiles else f.symbolFiles ++ [file] := by
  by_cases hf : file ∈ f.symbolFiles <;> simp [addSymbolFile, appendNew?, hf]

theorem paths_addSymbolFile (f : Facts) (file : String) :
    (f.addSymbolFile file).2.paths = f.paths := by
  simp only [addSymbolFile]
  split <;> rfl

theorem addSymbolFile_tidy {header : String} (h : f.Tidy)
    (hp : path ∈ f.paths Language.cxx.name) (hh : header ∈ Toolchain.compatHeaders) :
    (f.addSymbolFile (Path.joinText path header)).2.Tidy := by
  have hs := f.symbolFiles_addSymbolFile (Path.joinText path header)
  have ha := f.paths_addSymbolFile (Path.joinText path header)
  split at hs
  case isTrue => exact h.grow (f.addSymbolFile_adds _).toGrows (ha ▸ h.paths) hs
  case isFalse hn =>
    refine ⟨ha ▸ h.paths, ?nodup, fun file hf => ?header⟩
    case nodup =>
      rw [hs]
      exact h.symbolFiles.append (List.nodup_singleton _) (by simp_all)
    case header =>
      rw [hs] at hf
      rw [ha]
      cases List.mem_append.mp hf
      case inl hm => exact h.headers file hm
      case inr hm => exact ⟨path, hp, header, hh, List.mem_singleton.mp hm⟩

theorem addSymbolFile_learns {header : String} (hp : path ∈ f.paths Language.cxx.name)
    (hh : header ∈ Toolchain.compatHeaders) :
    f.Learns w (f.addSymbolFile (Path.joinText path header)).2 where
  toKeeps    := (f.addSymbolFile_adds _).keeps
  searchable := fun _ _ hm => .inl (f.paths_addSymbolFile _ ▸ hm)
  tidy       := fun ht => addSymbolFile_tidy ht hp hh

theorem addMacros_beside (f : Facts) (ms : List (String × String)) :
    (f.addMacros ms).paths = f.paths ∧ (f.addMacros ms).symbolFiles = f.symbolFiles := by
  refine List.foldlRecOn
    (motive := fun g : Facts => g.paths = f.paths ∧ g.symbolFiles = f.symbolFiles) ms _ ⟨rfl, rfl⟩
    fun g hg m _ => ?_
  simp only [addMacro]
  split <;> exact hg

theorem addMacros_learns (w : World) (f : Facts) (ms : List (String × String)) :
    f.Learns w (f.addMacros ms) :=
  .of_keeps (f.addMacros_adds ms).keeps (f.addMacros_beside ms).left (f.addMacros_beside ms).right

theorem addIncludePaths_learns {ps : List String} (f : Facts) (language : String)
    (h : ∀ path ∈ ps, w.isSearchable path = true) : f.Learns w (f.addIncludePaths language ps) :=
  .foldl (P := fun _ => True) (fun _ _ _ => id)
    (fun f _ path hp => f.addIncludePath_learns language (h path hp)) trivial

theorem firstFilled_of_isFilled {s : Option String} (l : List (Option String))
    (h : Probe.isFilled s = true) : firstFilled (s :: l) = s := by
  cases l
  case nil    => rfl
  case cons a => exact if_pos h

theorem addReport_learns (w : World) (f : Facts) (fields : VersionReport.Fields) :
    f.Learns w (f.addReport fields) where
  toGrows     := f.addReport_grows fields
  options     := Table.names_overlay_prefix ..
  version     := firstFilled_of_isFilled _
  target      := firstFilled_of_isFilled _
  installRoot := firstFilled_of_isFilled _
  searchable  := fun _ _ => .inl
  tidy        := fun ht => ⟨ht.paths, ht.symbolFiles, ht.headers⟩

end Facts

namespace Probe

variable {w : World} {s : Settings}

theorem includePaths_searchable (w : World) (s : Settings) (language program : String) :
    (includePaths w s language program).Always fun ps =>
      ∀ path ∈ ps, w.isSearchable path = true := by
  refine .of_any fun answer => ?_
  split
  case isTrue  => exact .pure fun _ hp => (List.mem_filter.mp hp).right
  case isFalse => exact .pure fun _ hp => absurd hp List.not_mem_nil

def Guess.IsSearchable (w : World) (g : Guess) : Prop :=
  (∀ path ∈ g.c, w.isSearchable path = true) ∧ ∀ path ∈ g.cxx, w.isSearchable path = true

theorem guess_isSearchable (w : World) (program : String) (version target : Option String) :
    (guess w program version target).IsSearchable w := by
  have hf : ∀ ds : List String, ∀ path ∈ (ds.filter w.isSearchable).eraseDups,
      w.isSearchable path = true :=
    fun _ _ hp => (List.mem_filter.mp <| List.mem_eraseDups.mp hp).right
  simp only [guess]
  split
  case h_1 => simp [Guess.IsSearchable]
  case h_2 => exact ⟨hf _, hf _⟩

end Probe

namespace Toolchain

open Probing

variable {w : World} {t : Toolchain} {f : Facts}

theorem addCxxPath_learns {path : String} (f : Facts) (h : w.isSearchable path = true) :
    f.Learns w (addCxxPath w f path) := by
  refine (f.addIncludePath_learns Language.cxx.name h).trans ?_
  refine .foldl (P := fun f => path ∈ f.paths Language.cxx.name)
    (fun _ _ hg hp => (hg.paths _).subset hp) (fun f hp file hf => ?_)
    (f.mem_paths_addIncludePath _ path)
  have ⟨header, hh, he⟩ := List.mem_map.mp (List.mem_filter.mp hf).left
  exact he ▸ Facts.addSymbolFile_learns hp hh

theorem addPaths_learns {lists : Probe.Guess} (f : Facts) (h : lists.IsSearchable w) :
    f.Learns w (addPaths w f lists) :=
  (f.addIncludePaths_learns _ h.left).trans <| .foldl (P := fun _ => True) (fun _ _ _ => id)
    (fun f _ path hp => addCxxPath_learns f (h.right path hp)) trivial

theorem searchLists_isSearchable (w : World) (s : Settings) (f : Facts) :
    (searchLists w s f).Always (·.IsSearchable w) := by
  refine .bind (Probe.includePaths_searchable w s _ _) fun c hc => ?_
  refine .bind (Probe.includePaths_searchable w s _ _) fun cxx hx => ?_
  have hg := Probe.guess_isSearchable w s.compiler f.version f.target
  split
  case isFalse => exact .pure ⟨hc, hx⟩
  case isTrue =>
    refine .pure ⟨hg.left, ?_⟩
    split
    case isTrue  => exact hg.right
    case isFalse => exact hx

theorem addPredefined_learns (w : World) (t : Toolchain) (f : Facts) :
    (t.addPredefined w f).Always (f.Learns w) := by
  refine .of_any fun ms => ?_
  split
  case isTrue  => exact .pure <| (f.addMacros_learns w _).trans (Facts.addMacros_learns w _ _)
  case isFalse => exact .pure <| f.addMacros_learns w _

theorem addSymbolMacros_learns (w : World) (t : Toolchain) (f : Facts) :
    (t.addSymbolMacros w f).Always (f.Learns w) := by
  unfold addSymbolMacros
  split
  case isTrue  => exact .pure <| .refl w f
  case isFalse => exact .of_any fun _ => .pure <| f.addMacros_learns w _

theorem populate_learns (w : World) (t : Toolchain) (f : Facts) :
    (t.populate w f).Always (f.Learns w) :=
  .of_any fun fields => .bind (addPredefined_learns w t _) fun g hg =>
    .bind (searchLists_isSearchable w _ g) fun _ hs =>
      .pure <| ((f.addReport_learns w fields).trans hg).trans (addPaths_learns g hs)

theorem repopulate_learns (w : World) (t : Toolchain) (f : Facts) :
    (t.repopulate w f).Always (f.Learns w) :=
  .bind (populate_learns w t f) fun g hg =>
    fun past => hg.trans (addSymbolMacros_learns w t g past)

end Toolchain
end SourceFlags
