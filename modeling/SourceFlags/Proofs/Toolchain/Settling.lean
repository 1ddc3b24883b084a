import SourceFlags.Proofs.Toolchain.Asking
import SourceFlags.Proofs.Toolchain.Contained
import SourceFlags.Proofs.Toolchain.Learning
import SourceFlags.Proofs.Toolchain.ReportLines
import SourceFlags.Proofs.World.Places

namespace SourceFlags

namespace Facts

-- A change that adds to facts, and adds nothing when it is made again, whatever has been added in
-- between.
structure Settles (change : Facts → Facts) : Prop where
  adds  : ∀ f : Facts, f.Adds (change f)
  again : ∀ f g, (change f).Adds g → change g = g

namespace Settles

variable {change next : Facts → Facts}

theorem comp (hn : Settles next) (hc : Settles change) : Settles (next ∘ change) where
  adds f      := (hc.adds f).trans (hn.adds (change f))
  again f g h := by
    have hg : change g = g := hc.again f g <| (hn.adds _).trans h
    rw [Function.comp_apply, hg, hn.again _ g h]

theorem foldl {α : Type} {step : Facts → α → Facts} (h : ∀ a, Settles (step · a)) (l : List α) :
    Settles (l.foldl step) := by
  induction l
  case nil           => exact ⟨Adds.refl, fun _ _ _ => rfl⟩
  case cons a l hi => exact hi.comp (h a)

end Settles

variable {f g : Facts} {w : World}

theorem addMacro_settles (name value : String) : Settles fun f => (f.addMacro name value).2 where
  adds f      := f.addMacro_adds name value
  again f g h := by
    have hm : name ∈ (f.addMacro name value).2.macros.names := by
      simp only [addMacro]
      split
      case isTrue hm => exact Table.has_iff.mp hm
      case isFalse   =>
        rw [Table.names_put]
        split <;> simp_all
    have hg := Table.has_iff.mpr <| (h.macros.map Prod.fst).subset hm
    simp only [addMacro, hg, if_true]

theorem addIncludePath_settles (language path : String) :
    Settles fun f => (f.addIncludePath language path).2 where
  adds f      := f.addIncludePath_adds language path
  again f g h := by
    have hm := (h.paths language).subset <| f.mem_paths_addIncludePath language path
    simp [addIncludePath, appendNew?, hm]

theorem addSymbolFile_settles (file : String) : Settles fun f => (f.addSymbolFile file).2 where
  adds f      := f.addSymbolFile_adds file
  again f g h := by
    have hm : file ∈ (f.addSymbolFile file).2.symbolFiles := by
      rw [symbolFiles_addSymbolFile]
      split <;> simp_all
    have hg := h.symbolFiles.subset hm
    simp [addSymbolFile, appendNew?, hg]

theorem addMacros_settles (ms : List (String × String)) : Settles (·.addMacros ms) :=
  .foldl (fun (m : String × String) => addMacro_settles m.1 m.2) ms

theorem addIncludePaths_settles (language : String) (ps : List String) :
    Settles (·.addIncludePaths language ps) :=
  .foldl (addIncludePath_settles language) ps

theorem firstFilled_firstFilled (s : Option String) {l : List (Option String)} (h : l ≠ []) :
    firstFilled (firstFilled (s :: l) :: l) = firstFilled (s :: l) := by
  cases hs : Probe.isFilled s
  case true  => rw [firstFilled_of_isFilled l hs, firstFilled_of_isFilled l hs]
  case false =>
    refine firstFilled_again h ?_
    rw [firstFilled_cons s h, firstFilled_cons none h, ← Probe.isFilled, hs]
    rfl

theorem addReport_again {fields : VersionReport.Fields} (hn : fields.names.Nodup)
    (h : (f.addReport fields).Adds g) : g.addReport fields = g := by
  have ho : (g.addReport fields).options = g.options := by
    simp only [addReport, h.options]
    exact Table.overlay_overlay hn f.options
  have hv : (g.addReport fields).version = g.version := by
    simp only [addReport, h.version]
    exact firstFilled_firstFilled _ (by simp)
  have ht : (g.addReport fields).target = g.target := by
    simp only [addReport, h.target]
    exact firstFilled_firstFilled _ (by simp)
  have hr : (g.addReport fields).installRoot = g.installRoot := by
    simp only [addReport, h.installRoot]
    exact firstFilled_firstFilled _ (by simp)
  simp only [addReport] at ho hv ht hr ⊢
  simp only [ho, hv, ht, hr]

end Facts

namespace Toolchain

open Facts

theorem addCxxPath_settles (w : World) (path : String) : Settles (addCxxPath w · path) :=
  (Settles.foldl addSymbolFile_settles _).comp (addIncludePath_settles _ path)

theorem addPaths_settles (w : World) (lists : Probe.Guess) : Settles (addPaths w · lists) :=
  (Settles.foldl (addCxxPath_settles w) lists.cxx).comp (addIncludePaths_settles _ lists.c)

theorem names_fieldsOf_nodup (a : Probe.Answer) : (Probe.fieldsOf a).names.Nodup := by
  unfold Probe.fieldsOf
  split
  case isTrue  => exact VersionReport.names_read_nodup _
  case isFalse => exact List.nodup_nil

variable {w : World} {t : Toolchain} {f g : Facts}

theorem Answers.lists_eq (h : f.Adds g) (w : World) (compiler : String) (a : Answers) :
    a.lists w compiler g = a.lists w compiler f := by
  simp only [lists, chosen, h.version, h.target]

-- Answers that have been added are not added again, whatever has been added meanwhile.
theorem Answers.addTo_again {a : Answers} (h : (a.addTo w t f).Adds g) : a.addTo w t g = g := by
  let reported := f.addReport (Probe.fieldsOf a.version)
  let extended := reported.addMacros (a.macrosOn t.platform)
  have hp : extended.Adds g := (addPaths_adds w extended _).trans h
  have hm : reported.Adds g := (addMacros_adds reported _).trans hp
  have again : g.addReport (Probe.fieldsOf a.version) = g :=
    addReport_again (names_fieldsOf_nodup a.version) hm
  have againMacros : g.addMacros (a.macrosOn t.platform) = g :=
    (addMacros_settles _).again reported g hp
  simp only [addTo, again, againMacros, a.lists_eq hp]
  exact (addPaths_settles w _).again extended g h

theorem populate_again (h : (t.populate w f).told.Adds g) : (t.populate w g).told = g := by
  rw [populate_eq] at h ⊢
  exact Answers.addTo_again h

theorem addSymbolMacros_again (w : World) (t : Toolchain) (f : Facts) :
    (t.addSymbolMacros w (t.addSymbolMacros w f).told).told = (t.addSymbolMacros w f).told := by
  let ms := (symbolMacros w t.settings f.symbolFiles).told
  have ha : (t.addSymbolMacros w f).told = f.addMacros ms := by
    rw [addSymbolMacros_eq]
    rfl
  have hs : (f.addMacros ms).symbolFiles = f.symbolFiles := (f.addMacros_beside ms).right
  rw [ha, addSymbolMacros_eq, hs]
  exact (addMacros_settles ms).again f _ (.refl _)

open Probing

def completed (w : World) (t : Toolchain) : Facts :=
  (t.addSymbolMacros w (t.fresh w)).told

variable {a : Action} {as : List Action}

theorem populate_fresh (h : (t.fresh w).Adds f) : (t.populate w f).told = f :=
  populate_again (f := t.bare w) (fresh_eq w t ▸ h)

theorem fresh_adds_completed (w : World) (t : Toolchain) : (t.fresh w).Adds (t.completed w) :=
  addSymbolMacros_adds w t (t.fresh w) []

theorem change_completed (h : w.IsSteady) (a : Action) :
    Use.change w ⟨t, a⟩ (some (t.completed w)) = t.completed w := by
  cases a
  case setup         => rfl
  case refreshMacros => exact addSymbolMacros_again w t (t.fresh w)
  case refresh =>
    rw [Use.change_refresh h rfl, populate_fresh (fresh_adds_completed w t)]
    exact addSymbolMacros_again w t (t.fresh w)

theorem change_fresh (h : w.IsSteady) (a : Action) :
    Use.change w ⟨t, a⟩ (some (t.fresh w)) = if a = .setup then t.fresh w else t.completed w := by
  cases a
  case setup         => rfl
  case refreshMacros => rfl
  case refresh => rw [Use.change_refresh h rfl, populate_fresh (.refl _)]; rfl

theorem change_new (h : w.IsSteady) (ha : a ≠ .refreshMacros) :
    Use.change w ⟨t, a⟩ none = if a = .setup then t.fresh w else t.completed w := by
  cases a
  case setup         => exact (fresh_eq w t).symm
  case refreshMacros => contradiction
  case refresh =>
    have hc : Use.change w ⟨t, .refresh⟩ none = Use.change w ⟨t, .refresh⟩ (some (t.bare w)) := rfl
    rw [hc, Use.change_refresh h rfl, ← fresh_eq]
    rfl

def uses (t : Toolchain) (as : List Action) : List Use :=
  as.map (⟨t, ·⟩)

theorem kept_uses_cons (w : World) (t : Toolchain) (f : Option Facts) (a : Action)
    (as : List Action) :
    kept w f (t.uses (a :: as)) = kept w (some (Use.change w ⟨t, a⟩ f)) (t.uses as) :=
  rfl

theorem kept_completed (h : w.IsSteady) (as : List Action) :
    kept w (some (t.completed w)) (t.uses as) = some (t.completed w) := by
  induction as
  case nil => rfl
  case cons a as hi => rw [kept_uses_cons, change_completed h, hi]

theorem kept_fresh (h : w.IsSteady) (as : List Action) :
    kept w (some (t.fresh w)) (t.uses as) =
      some (if ∀ a ∈ as, a = .setup then t.fresh w else t.completed w) := by
  induction as
  case nil => rfl
  case cons a as hi =>
    rw [kept_uses_cons, change_fresh h]
    by_cases ha : a = .setup
    case pos => simpa [ha] using hi
    case neg => simpa [ha] using kept_completed h as

theorem kept_new (h : w.IsSteady) (ha : a ≠ .refreshMacros) (as : List Action) :
    kept w none (t.uses (a :: as)) =
      some (if ∀ b ∈ a :: as, b = .setup then t.fresh w else t.completed w) := by
  rw [kept_uses_cons, change_new h ha]
  by_cases hs : a = .setup
  case pos => simpa [hs] using kept_fresh h as
  case neg => simpa [hs] using kept_completed h as

def served (w : World) (t : Toolchain) (c : Cache) (as : List Action) : Probing (Option Facts) := do
  return (← run w c ((t.uses as).map .use)).facts? (t.key w)

theorem note_uses (w : World) (t : Toolchain) (us : List Use) (as : List Action) :
    ((t.uses as).map Call.use).foldl (note w (t.key w)) us = us ++ t.uses as := by
  induction as generalizing us
  case nil => exact us.append_nil.symm
  case cons a as hi =>
    have hn : note w (t.key w) us (.use ⟨t, a⟩) = us ++ [⟨t, a⟩] := if_pos rfl
    have hu : t.uses (a :: as) = ⟨t, a⟩ :: t.uses as := rfl
    rw [hu, List.map_cons, List.foldl_cons, hn, hi, List.append_assoc, List.singleton_append]

theorem served_told (h : w.IsSteady) {c : Cache} (hc : c.facts? (t.key w) = none)
    (as : List Action) : (served w t c as).told = kept w none (t.uses as) := by
  have hk : c.facts? (t.key w) = kept w none [] := hc
  have hr := run_kept_from h ((t.uses as).map .use) hk
  rw [note_uses, List.nil_append] at hr
  exact hr

theorem served_steady (h : w.IsSteady) (t : Toolchain) (c : Cache) (as : List Action) :
    (served w t c as).Steady :=
  .bind (run_steady h c _) fun _ => .pure _

theorem served_settles (h : w.IsSteady) (t : Toolchain) {c : Cache}
    (hc : c.facts? (t.key w) = none) {a : Action} (ha : a ≠ .refreshMacros) (as : List Action) :
    let facts := fun as => (served w t c as).told
    (served w t c (a :: as)).Always
      (· = facts (if ∀ b ∈ a :: as, b = .setup then [.setup] else [.setup, .refreshMacros])) ∧
    facts [.refresh] = facts [.setup, .refreshMacros] ∧
    facts [.refresh, .refresh] = facts [.refresh] ∧
    facts [.setup] = some (t.fresh w) := by
  intro facts
  have hk : ∀ a as, a ≠ .refreshMacros → facts (a :: as) =
      some (if ∀ b ∈ a :: as, b = .setup then t.fresh w else t.completed w) :=
    fun a as ha => (served_told h hc _).trans (kept_new h ha as)
  refine ⟨fun past => ?_, ?_, ?_, ?_⟩
  case refine_1 =>
    refine (served_steady h t c _ past).trans ?_
    rw [show (served w t c (a :: as)).told = facts (a :: as) from rfl, hk a as ha]
    split
    case isTrue  => simp [hk]
    case isFalse => simp [hk]
  all_goals simp [hk]

def headed : World :=
  { World.ruled
      [⟨"gcc", some ["-v"], [], none, none, .exited 0 (some "gcc version 13.2.0\n")⟩,
       ⟨"c++", none, ["-v"], none, none, .exited 0 (some
         "#include <...> search starts here:\n /i\nEnd of search list.\n")⟩,
       ⟨"cpp", none, ["/dev/null"], none, none, .exited 0 (some "#define A 1\n")⟩,
       ⟨"cpp", none, ["-"], none, none, .exited 0 (some "#define A 2\n#define B 3\n")⟩] with
    files := .directory .full
      [(['i'], .directory .full [("features.h".toList, .file (.text "") false)])]
    systemDirectories := ["/i"] }

theorem symbolFilesIn_headed : symbolFilesIn headed "/i" = ["/i/features.h"] := by
  have hl : headed.files.countLinks = 0 := by decide
  have hc : headed.isFile "/i/bits/c++config.h" = _ :=
    headed.isFile_eq (by decide) (by decide) rfl (by decide) hl
  have hs : headed.isFile "/i/sys/cdefs.h" = _ :=
    headed.isFile_eq (by decide) (by decide) rfl (by decide) hl
  have hf : headed.isFile "/i/features.h" = _ :=
    headed.isFile_eq (by decide) (by decide) rfl (by decide) hl
  have hp : compatHeaders.map (Path.joinText "/i") =
    ["/i/bits/c++config.h", "/i/sys/cdefs.h", "/i/features.h"] := by decide
  simp only [symbolFilesIn, hp, List.filter, hc, hs, hf]
  decide

def reader : Toolchain :=
  ofSettings .standard none

theorem fresh_headed :
    reader.fresh headed =
      { Facts.ofExecutable "gcc" with
        version      := some "13.2.0"
        options      := [("version", some "13.2.0")]
        includePaths := [("c++", ["/i"])]
        macros       := [("A", "1")]
        symbolFiles  := ["/i/features.h"] } := by
  rw [fresh_eq, populate_eq, told_map]
  let answers := (ask headed reader.settings).told
  let reported := (reader.bare headed).addReport (Probe.fieldsOf answers.version)
  let extended := reported.addMacros (answers.macrosOn reader.platform)
  have hl : answers.lists headed "gcc" extended = ⟨[], ["/i"]⟩ := by decide
  have ha : answers.addTo headed reader (reader.bare headed) =
      ((extended.addIncludePath "c++" "/i").2.addSymbolFile "/i/features.h").2 := by
    have hp : answers.addTo headed reader (reader.bare headed) =
      addPaths headed extended (answers.lists headed "gcc" extended) := rfl
    rw [hp, hl]
    simp only [addPaths, addIncludePaths, List.foldl, addCxxPath, symbolFilesIn_headed]
    rfl
  rw [ha]
  decide

theorem completed_headed :
    reader.completed headed = (reader.fresh headed).addMacros [("A", "2"), ("B", "3")] := by
  rw [completed, fresh_headed]
  decide

-- However the toolchain is used after it has been set up, the header is read once, and does not
-- define again what is defined from the start.
theorem served_after_header :
    let served := fun as => (served headed reader .empty as).told
    headed.IsSteady ∧
    served [.setup, .refreshMacros, .setup, .refresh] = served [.setup, .refreshMacros] ∧
    served [.refresh] = served [.setup, .refreshMacros] ∧
    (served [.refresh]).map (·.macros) = some [("A", "1"), ("B", "3")] ∧
    (served [.setup]).map (·.macros) = some [("A", "1")] := by
  intro served
  have h : headed.IsSteady := World.ruled_isSteady (by simp)
  have hc : Cache.empty.facts? (reader.key headed) = none := rfl
  have ⟨ha, hr, _, hf⟩ := served_settles h reader hc (a := .setup) (by simp)
    [.refreshMacros, .setup, .refresh]
  have hs : served [.setup] = some (reader.fresh headed) := hf
  have hk : served [.refresh] = some (reader.completed headed) :=
    (served_told h hc _).trans (kept_new h (by simp) _)
  refine ⟨h, ha [], hr, ?_, ?_⟩
  case refine_1 => rw [hk, completed_headed, fresh_headed]; decide
  case refine_2 => rw [hs, fresh_headed]; rfl

end Toolchain
end SourceFlags
