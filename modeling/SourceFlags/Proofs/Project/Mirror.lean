import SourceFlags.Proofs.Path.Relative
import SourceFlags.Proofs.Project.Components
import SourceFlags.Project.Arguments

namespace SourceFlags

open Text

namespace Path

def below (d : Path) (way : List Part) : Path :=
  ⟨d.lead, d.parts ++ way⟩

structure IsCanonical (s : String) : Prop where
  rooted : isAbsolute s = true
  normal : normalText s = s

variable {d e p : Path} {way : List Part} {s : String}

theorem leadsTo_iff_exists_below : d.LeadsTo p ↔ ∃ way, p = d.below way := by
  constructor
  case mp =>
    rintro ⟨hl, way, hp⟩
    exact ⟨way, Path.ext hl.symm hp.symm⟩
  case mpr =>
    rintro ⟨way, rfl⟩
    exact ⟨rfl, List.prefix_append ..⟩

theorem below_settled (hd : (d.below way).Settled) (he : e.Settled) : (e.below way).Settled where
  lead_le := he.lead_le
  parts   := List.forall_mem_append.mpr
    ⟨he.parts, fun a ha => hd.parts a (List.mem_append_right _ ha)⟩
  rooted  := he.rooted
  no_up   := by
    have hw : up ∉ way := fun ha => hd.no_up (List.mem_append_right _ ha)
    simpa [below] using ⟨he.no_up, hw⟩

theorem afterCommon_append (as bs : List Part) : afterCommon as (as ++ bs) = ([], bs) := by
  induction as
  case nil          => rw [List.nil_append, afterCommon]; simp
  case cons a as hi => rw [List.cons_append, afterCommon, if_pos rfl, hi]

theorem relative_below (d : Path) (way : List Part) : relative d (d.below way) = ⟨0, way⟩ := by
  simp [relative, below, afterCommon_append]

theorem IsCanonical.settled (h : IsCanonical s) : (ofText s).Settled ∧ (ofText s).text = s := by
  have hc : (ofText s).Clean := ofChars_clean s.toList
  have hl : (ofText s).lead ≠ 0 := fun hl => by
    simpa [(lead_ofText_eq_zero_iff s).mp hl] using h.rooted
  have hs := normal_settled hc hl
  have ht : (ofText s).normal.text = s := h.normal
  have hn : (ofText s).normal = ofText s := by rw [← ofText_text hs.toClean, ht]
  exact ⟨hn ▸ hs, by rw [← hn, ht]⟩

theorem IsCanonical.normalText_joinText (h : IsCanonical s) (hd : (d.below way).Settled) :
    normalText (joinText s (⟨0, way⟩ : Path).text) = ((ofText s).below way).text := by
  have hw : Clean ⟨0, way⟩ := ⟨Nat.zero_le 2, fun a ha => hd.parts a (List.mem_append_right _ ha)⟩
  have ha : (ofText s).append (⟨0, way⟩ : Path).text = (ofText s).below way := by
    rw [append, ofText_text hw, if_pos rfl, below]
  rw [normalText, ofText_joinText, ha, (below_settled hd h.settled.left).normal_eq]

theorem IsCanonical.below_text_inj {t : String} (hs : IsCanonical s) (ht : IsCanonical t)
    (hd : (d.below way).Settled) :
    ((ofText s).below way).text = ((ofText t).below way).text ↔ s = t := by
  constructor
  case mp =>
    intro h
    have h := congrArg ofText h
    rw [ofText_text (below_settled hd hs.settled.left).toClean,
      ofText_text (below_settled hd ht.settled.left).toClean, below, below, Path.mk.injEq] at h
    rw [← hs.settled.right, ← ht.settled.right]
    exact congrArg text <| Path.ext h.left <| List.append_cancel_right h.right
  case mpr => exact fun h => h ▸ rfl

end Path

namespace Project

open SourceFlags.Path

-- What the compiler of a kernel's file is given, where `mirror` stands for the directories that the
-- build tree adds.
def kernelFlags (p : Project) (paths : List String) (directory : Path) (mirror : List String) :
    List String :=
  ["-include", joinText p.root kernelHeader] ++ paths.map includeFlag ++
    [includeFlag directory.text] ++ mirror.map includeFlag ++ ["-D" ++ kernelMacro]

variable {p : Project} {cwd build architecture source : String} {paths : List String}
  {ts : List Target} {choice : Choice} {directory : Path} {way : List Part}

theorem contains_iff_leadsTo (cwd : String) (hr : IsCanonical p.root) (hd : directory.Settled)
    (hl : directory.lead = 1) :
    p.contains cwd directory.text = true ↔ (ofText p.root).LeadsTo directory := by
  have ⟨hs, ht⟩ := hr.settled
  have hn : p.root ≠ "" := by
    intro hn
    simpa [hn, isAbsolute] using hr.rooted
  have ha : absoluteText cwd directory.text = directory.text :=
    congrArg text <| hd.absolute_text cwd
  have hc := covers_iff hs hd
  rw [ht] at hc
  rw [contains_eq_covers hn, ha, hc, IsWithin]
  refine or_iff_right_of_imp fun h => ?_
  rw [h]
  exact ⟨hl.symm, List.nil_prefix⟩

theorem counterpart_below (cwd build : String) (hr : IsCanonical p.root)
    (hd : ((ofText p.root).below way).Settled) :
    counterpart cwd p.root build ((ofText p.root).below way).text =
      normalText (joinText build (⟨0, way⟩ : Path).text) := by
  have ⟨hs, ht⟩ := hr.settled
  have ha : absolute cwd p.root = ofText p.root := by
    have ha := hs.absolute_text cwd
    rwa [ht] at ha
  simp only [counterpart, ha, hd.absolute_text, relative_below]

theorem known?_isOk (ht : p.targets = .known ts) (choice : Choice) :
    ∃ target, choice.known? p = .ok target := by
  cases choice <;> simp [Choice.known?, ht, Targets.list, Except.map]

theorem target_isOk (ht : p.targets = .known ts) (choice : Choice) (cwd : String)
    (source : Option String) :
    ∃ target, choice.target cwd p source = .ok target := by
  have ⟨target, hk⟩ := known?_isOk ht choice
  cases target <;> cases source <;>
    simp [Choice.target, hk, targetFor, ht, Targets.list, Except.map, bind, Except.bind, pure,
      Except.pure]

theorem arguments_kernel (hv : p.variant = .kernel build architecture)
    (hi : p.includePaths = .texts paths) (ht : p.targets = .known ts) (hn : source ≠ "") :
    p.arguments cwd choice (some source) =
      .ok (["-include", joinText p.root kernelHeader] ++ paths.map includeFlag ++
        sourceArguments cwd p build source ++ ["-D" ++ kernelMacro]) := by
  have hf : (some source).filter (!·.isEmpty) = some source := by simpa using hn
  have ⟨target, hc⟩ := target_isOk ht choice cwd (some source)
  have hp : (paths.map Value.text).map (includeFlag ·.written) = paths.map includeFlag := by
    rw [List.map_map]
    rfl
  simp only [arguments, hf, hv, hc, Except.bind, kernelArguments, hi, Value.items_texts]
  exact congrArg (fun flags => Except.ok (_ ++ flags ++ _ ++ _)) hp

theorem sourceArguments_below (hw : isAbsolute cwd = true) (hr : IsCanonical p.root)
    (hb : IsCanonical build) (hl : (absolute cwd source).lead = 1)
    (hd : (absolute cwd source).parent = (ofText p.root).below way) :
    sourceArguments cwd p build source =
      includeFlag (absolute cwd source).parent.text ::
        if build = p.root then []
        else [includeFlag (normalText (joinText build (⟨0, way⟩ : Path).text))] := by
  have hs : (absolute cwd source).parent.Settled :=
    (parent_leadsTo _).settled (absolute_settled hw source)
  have hc := (contains_iff_leadsTo cwd hr hs hl).mpr <|
    leadsTo_iff_exists_below.mpr ⟨way, hd⟩
  rw [hd] at hs hc
  have hm := counterpart_below cwd build hr hs
  have he := hb.below_text_inj hr hs
  rw [← hb.normalText_joinText hs] at he
  simp only [sourceArguments, hc, Bool.true_and, hd, hm, bne_iff_ne, ne_eq, he, ite_not]

theorem sourceArguments_beside (hw : isAbsolute cwd = true) (hr : IsCanonical p.root)
    (hl : (absolute cwd source).lead = 1)
    (hn : ¬(ofText p.root).LeadsTo (absolute cwd source).parent) :
    sourceArguments cwd p build source = [includeFlag (absolute cwd source).parent.text] := by
  have hs : (absolute cwd source).parent.Settled :=
    (parent_leadsTo _).settled (absolute_settled hw source)
  have hc := mt (contains_iff_leadsTo cwd hr hs hl).mp hn
  simp [sourceArguments, hc]

-- The build tree adds the place that the source's directory has in it, and nothing where that is no
-- other directory or where there is none.
theorem kernel_arguments (hw : isAbsolute cwd = true)
    (hv : p.variant = .kernel build architecture) (hi : p.includePaths = .texts paths)
    (ht : p.targets = .known ts) (hr : IsCanonical p.root) (hb : IsCanonical build)
    (hn : source ≠ "") (hs : ['/', '/'].isPrefixOf (absoluteText cwd source).toList = false) :
    let directory := (absolute cwd source).parent
    (∀ way, directory = (ofText p.root).below way →
      let mirrored := normalText (joinText build (⟨0, way⟩ : Path).text)
      mirrored = ((ofText build).below way).text ∧
      p.arguments cwd choice (some source) =
        .ok (p.kernelFlags paths directory (if build = p.root then [] else [mirrored]))) ∧
    (¬(ofText p.root).LeadsTo directory →
      p.arguments cwd choice (some source) = .ok (p.kernelFlags paths directory [])) := by
  intro directory
  have hl : (absolute cwd source).lead = 1 := (absolute_settled hw source).lead_eq_one hs
  have hd : directory.Settled := (parent_leadsTo _).settled (absolute_settled hw source)
  rw [arguments_kernel hv hi ht hn]
  refine ⟨fun way hway => ⟨hb.normalText_joinText (hway ▸ hd), ?_⟩, fun hout => ?_⟩
  · rw [sourceArguments_below hw hr hb hl hway, kernelFlags]
    split <;> simp [directory]
  · rw [sourceArguments_beside hw hr hl hout, kernelFlags]
    simp [directory]

def outOfTree : Project :=
  { bare "/k" (.kernel "/b" "x86") with includePaths := .texts ["/k/include"] }

theorem kernel_arguments_out_of_tree :
    (∀ source ∈ ["/k/drivers/../net/e1000.c", "../k/init.c", "/kb/x.c"], source ≠ "" ∧
      ['/', '/'].isPrefixOf (absoluteText "/w" source).toList = false) ∧
    IsCanonical outOfTree.root ∧ IsCanonical "/b" ∧
    outOfTree.arguments "/w" .bySource (some "/k/drivers/../net/e1000.c") =
      .ok ["-include", "/k/include/linux/kconfig.h", "-I/k/include", "-I/k/net", "-I/b/net",
        "-D__KERNEL__"] ∧
    outOfTree.arguments "/w" .bySource (some "../k/init.c") =
      .ok ["-include", "/k/include/linux/kconfig.h", "-I/k/include", "-I/k", "-I/b",
        "-D__KERNEL__"] ∧
    outOfTree.arguments "/w" .bySource (some "/kb/x.c") =
      .ok ["-include", "/k/include/linux/kconfig.h", "-I/k/include", "-I/kb", "-D__KERNEL__"] := by
  have hs : ∀ source ∈ ["/k/drivers/../net/e1000.c", "../k/init.c", "/kb/x.c"], source ≠ "" ∧
      ['/', '/'].isPrefixOf (absoluteText "/w" source).toList = false := by decide
  have hr : IsCanonical outOfTree.root := ⟨by decide, by decide⟩
  have hb : IsCanonical "/b" := ⟨by decide, by decide⟩
  refine ⟨hs, hr, hb, ?_⟩
  simp only [List.forall_mem_cons] at hs
  obtain ⟨⟨hn, hd⟩, ⟨hn', hd'⟩, ⟨hn'', hd''⟩, _⟩ := hs
  have hw : isAbsolute "/w" = true := by decide
  have below : outOfTree.arguments "/w" .bySource (some "/k/drivers/../net/e1000.c") = .ok _ :=
    ((kernel_arguments hw rfl rfl rfl hr hb hn hd).left ["net".toList] (by decide)).right
  have atRoot : outOfTree.arguments "/w" .bySource (some "../k/init.c") = .ok _ :=
    ((kernel_arguments hw rfl rfl rfl hr hb hn' hd').left [] (by decide)).right
  have outside : outOfTree.arguments "/w" .bySource (some "/kb/x.c") = .ok _ :=
    (kernel_arguments hw rfl rfl rfl hr hb hn'' hd'').right (by decide)
  refine ⟨below.trans <| congrArg Except.ok ?_, atRoot.trans <| congrArg Except.ok ?_,
    outside.trans <| congrArg Except.ok ?_⟩
  all_goals decide

end Project

end SourceFlags
