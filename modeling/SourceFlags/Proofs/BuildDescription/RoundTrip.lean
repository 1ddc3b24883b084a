import SourceFlags.BuildDescription
import SourceFlags.Proofs.SExpr.Writing
import SourceFlags.Proofs.Table
import SourceFlags.Proofs.World.Places
import SourceFlags.Proofs.World.Steady

namespace SourceFlags.BuildDescription

open Text SExpr

structure Description where
  name           : String
  targets        : List Target
  bindings       : Bindings
  configurations : Configurations
  configuration  : String

def bindingTree (b : String × String) : Tree :=
  .list [.str b.1, .atom ".", .str b.2]

def bindingsTree (bs : Bindings) : Tree :=
  .quote (.list (bs.map bindingTree))

def configurationTree (c : String × Bindings) : Tree :=
  .list (.str c.1 :: c.2.map bindingTree)

def configurationsTree (cs : Configurations) : Tree :=
  .quote (.list (cs.map configurationTree))

-- A target is written as one of some class, which is not part of it.
def targetTree (classOf : Target → String) (t : Target) : Tree :=
  .list [.atom (classOf t), .str t.name,
    .atom ":name", .str t.name,
    .atom ":path", .str t.path,
    .atom ":source", .quote (.list (t.sources.map .str)),
    .atom ":configuration-variables", configurationsTree t.configurations]

namespace Description

def tree (classOf : Target → String) (d : Description) : Tree :=
  .list [.atom projectClass, .str d.name,
    .atom ":name", .str d.name,
    .atom ":targets", .list (.atom listName :: d.targets.map (targetTree classOf)),
    .atom ":variables", bindingsTree d.bindings,
    .atom ":configuration-variables", configurationsTree d.configurations,
    .atom ":configuration-default", .str d.configuration]

def written (classOf : Target → String) (d : Description) : String :=
  String.ofList (d.tree classOf).written

end Description

def bindingStrings (bs : Bindings) : List String :=
  bs.flatMap fun b => [b.1, b.2]

def configurationStrings (cs : Configurations) : List String :=
  cs.flatMap fun c => c.1 :: bindingStrings c.2

def targetStrings (t : Target) : List String :=
  t.name :: t.path :: t.sources ++ configurationStrings t.configurations

namespace Description

def strings (d : Description) : List String :=
  d.name :: d.configuration :: d.targets.flatMap targetStrings ++ bindingStrings d.bindings ++
    configurationStrings d.configurations

structure IsWritable (d : Description) : Prop where
  name           : d.name ≠ ""
  configuration  : d.configuration ≠ ""
  targets        : ∀ t ∈ d.targets, t.configurations.names.Nodup
  configurations : d.configurations.names.Nodup
  strings        : ∀ s ∈ d.strings, '\r' ∉ s.toList

end Description

structure IsSymbol (s : String) : Prop extends IsAtom s where
  value : atomValue s = .sym s

variable {b : String × String} {bs : Bindings} {c : String × Bindings} {cs : Configurations}
variable {t : Target} {classOf : Target → String} {d : Description} {fs : List Form}

def bindingForm (b : String × String) : Form :=
  .pair (.str b.1) (.str b.2)

def configurationForm (c : String × Bindings) : Form :=
  .list (.str c.1 :: c.2.map bindingForm)

def targetSlots (t : Target) : List Form :=
  [.sym ":name", .str t.name,
   .sym ":path", .str t.path,
   .sym ":source", .list (t.sources.map .str),
   .sym ":configuration-variables", .list (t.configurations.map configurationForm)]

def targetForm (classOf : Target → String) (t : Target) : Form :=
  .list (.sym (classOf t) :: .str t.name :: targetSlots t)

namespace Description

def slotForms (classOf : Target → String) (d : Description) : List Form :=
  [.sym ":name", .str d.name,
   .sym ":targets", .list (.sym listName :: d.targets.map (targetForm classOf)),
   .sym ":variables", .list (d.bindings.map bindingForm),
   .sym ":configuration-variables", .list (d.configurations.map configurationForm),
   .sym ":configuration-default", .str d.configuration]

def form (classOf : Target → String) (d : Description) : Form :=
  .list (.sym projectClass :: .str d.name :: d.slotForms classOf)

end Description

theorem quotedList_value {α : Type} {tree : α → Tree} {form : α → Form}
    (hv : ∀ a, (tree a).value = form a) (hn : ∀ a, form a ≠ .sym ".") (l : List α) :
    (Tree.quote (.list (l.map tree))).value = .list (l.map form) := by
  have hd : ∀ t ∈ l.map tree, t.value ≠ .sym "." := by
    intro t ht
    have ⟨a, _, ha⟩ := List.mem_map.mp ht
    exact ha ▸ hv a ▸ hn a
  rw [Tree.value, Tree.list_value_of_ne_dot hd, List.map_map]
  exact congrArg _ <| List.map_congr_left fun a _ => hv a

theorem bindingTree_value (b : String × String) : (bindingTree b).value = bindingForm b :=
  rfl

theorem configurationTree_value (c : String × Bindings) :
    (configurationTree c).value = configurationForm c := by
  have hn : ∀ t ∈ .str c.1 :: c.2.map bindingTree, t.value ≠ .sym "." := by
    refine List.forall_mem_cons.mpr ⟨nofun, fun t ht => ?_⟩
    have ⟨b, _, hb⟩ := List.mem_map.mp ht
    exact hb ▸ nofun
  rw [configurationTree, Tree.list_value_of_ne_dot hn, List.map_cons, List.map_map]
  rfl

theorem bindingsTree_value (bs : Bindings) :
    (bindingsTree bs).value = .list (bs.map bindingForm) :=
  quotedList_value bindingTree_value nofun bs

theorem configurationsTree_value (cs : Configurations) :
    (configurationsTree cs).value = .list (cs.map configurationForm) :=
  quotedList_value configurationTree_value nofun cs

theorem sourcesTree_value (ss : List String) :
    (Tree.quote (.list (ss.map .str))).value = .list (ss.map .str) :=
  quotedList_value (fun _ => rfl) nofun ss

theorem targetTree_value (h : IsSymbol (classOf t)) :
    (targetTree classOf t).value = targetForm classOf t := by
  rw [targetTree, Tree.list_value (by simp), targetForm, targetSlots]
  simp only [List.map_cons, List.map_nil, sourcesTree_value, configurationsTree_value]
  simp only [Tree.value, h.value]
  rfl

theorem targetsTree_value {ts : List Target} (h : ∀ t ∈ ts, IsSymbol (classOf t)) :
    (Tree.list (.atom listName :: ts.map (targetTree classOf))).value =
      .list (.sym listName :: ts.map (targetForm classOf)) := by
  have hl : (Tree.atom listName).value = .sym listName := rfl
  have hn : ∀ t ∈ .atom listName :: ts.map (targetTree classOf), t.value ≠ .sym "." := by
    refine List.forall_mem_cons.mpr ⟨by rw [hl]; simp [listName], fun t ht => ?_⟩
    have ⟨u, hu, he⟩ := List.mem_map.mp ht
    rw [← he, targetTree_value (h u hu)]
    exact nofun
  rw [Tree.list_value_of_ne_dot hn, List.map_cons, List.map_map, hl]
  exact congrArg (fun fs => Form.list (.sym listName :: fs)) <|
    List.map_congr_left fun t ht => targetTree_value (h t ht)

theorem tree_value (h : ∀ t ∈ d.targets, IsSymbol (classOf t)) :
    (d.tree classOf).value = d.form classOf := by
  rw [Description.tree, Tree.list_value (by simp), Description.form, Description.slotForms]
  simp only [List.map_cons, List.map_nil, bindingsTree_value, configurationsTree_value,
    targetsTree_value h]
  rfl

def reserved : List String :=
  [projectClass, listName, ".", ":name", ":path", ":source", ":targets", ":variables",
   ":configuration-variables", ":configuration-default"]

theorem isAtom_of_reserved : ∀ s ∈ reserved, IsAtom s := by
  have h : reserved.all isName = true := by decide +kernel
  exact fun s hs => isAtom_of_isName <| List.all_eq_true.mp h s hs

section

variable {strs atoms : String → Prop} (ha : ∀ s ∈ reserved, atoms s)

include ha

theorem bindingTrees_use (h : ∀ s ∈ bindingStrings bs, strs s) :
    ∀ t ∈ bs.map bindingTree, t.Uses strs atoms := by
  intro t ht
  have ⟨b, hb, he⟩ := List.mem_map.mp ht
  have hs : strs b.1 ∧ strs b.2 := by
    simpa using fun s hs => h s <| List.mem_flatMap.mpr ⟨b, hb, hs⟩
  simpa [← he, bindingTree, hs] using ha "." (by simp [reserved])

theorem bindingsTree_uses (h : ∀ s ∈ bindingStrings bs, strs s) :
    (bindingsTree bs).Uses strs atoms :=
  Tree.uses_quote.mpr <| Tree.uses_list.mpr <| bindingTrees_use ha h

theorem configurationsTree_uses (h : ∀ s ∈ configurationStrings cs, strs s) :
    (configurationsTree cs).Uses strs atoms := by
  refine Tree.uses_quote.mpr <| Tree.uses_list.mpr fun t ht => ?_
  have ⟨c, hc, he⟩ := List.mem_map.mp ht
  have hs : ∀ s ∈ c.1 :: bindingStrings c.2, strs s := fun s hs =>
    h s <| List.mem_flatMap.mpr ⟨c, hc, hs⟩
  have ⟨hn, hb⟩ := List.forall_mem_cons.mp hs
  rw [← he, configurationTree, Tree.uses_list]
  exact List.forall_mem_cons.mpr ⟨Tree.uses_str.mpr hn, bindingTrees_use ha hb⟩

theorem targetTree_uses (h : ∀ s ∈ targetStrings t, strs s) (hc : atoms (classOf t)) :
    (targetTree classOf t).Uses strs atoms := by
  simp only [targetStrings, List.cons_append, List.forall_mem_cons, List.forall_mem_append] at h
  have ⟨hn, hp, hs, hcs⟩ := h
  have ht := configurationsTree_uses ha hcs
  simp only [reserved, List.forall_mem_cons] at ha
  simpa [targetTree, hn, hp, ht, ha, hc] using hs

theorem tree_uses (h : ∀ s ∈ d.strings, strs s) (hc : ∀ t ∈ d.targets, atoms (classOf t)) :
    (d.tree classOf).Uses strs atoms := by
  simp only [Description.strings, List.cons_append, List.forall_mem_cons,
    List.forall_mem_append] at h
  have ⟨hn, hd, ⟨hts, hbs⟩, hcs⟩ := h
  have hb := bindingsTree_uses ha hbs
  have hcs := configurationsTree_uses ha hcs
  have ht : ∀ t ∈ d.targets, (targetTree classOf t).Uses strs atoms := fun t ht =>
    targetTree_uses ha (fun s hs => hts s <| List.mem_flatMap.mpr ⟨t, ht, hs⟩) (hc t ht)
  simp only [reserved, List.forall_mem_cons] at ha
  simpa [Description.tree, hn, hd, hb, hcs, ha] using ht

end

theorem items_list (fs : List Form) : items (.list fs) = .ok fs := by
  cases fs <;> rfl

theorem binding?_bindingForm (b : String × String) : binding? (bindingForm b) = some b :=
  rfl

theorem bindingsOf_map (bs : Bindings) : bindingsOf (bs.map bindingForm) = bs := by
  have hb : binding? ∘ bindingForm = some := funext binding?_bindingForm
  rw [bindingsOf, List.filterMap_map, hb, List.filterMap_some]

theorem configuration?_configurationForm (c : String × Bindings) :
    configuration? (configurationForm c) = some c := by
  simp only [configuration?, configurationForm, Form.name?, Option.map_some, bindingsOf_map]

theorem gather_of_not_mem (h : c.1 ∉ cs.names) : gather cs c = cs ++ [c] := by
  rw [gather, Configurations.bindings, Table.get?_of_not_mem h, Table.put_of_not_mem h]
  rfl

theorem foldl_gather (acc : Configurations) (h : Table.names (acc ++ cs) |>.Nodup) :
    cs.foldl gather acc = acc ++ cs := by
  induction cs generalizing acc
  case nil => rw [List.append_nil]; rfl
  case cons c cs hi =>
    have hc : c.1 ∉ acc.names := by
      simp only [Table.names, List.map_append, List.map_cons] at h ⊢
      exact fun hm => (List.nodup_append.mp h).right.right _ hm _ List.mem_cons_self rfl
    rw [List.foldl_cons, gather_of_not_mem hc, hi _ (by simpa using h), List.append_assoc]
    rfl

theorem configurationsOf_map (h : cs.names.Nodup) :
    configurationsOf (cs.map configurationForm) = cs := by
  have hc : configuration? ∘ configurationForm = some := funext configuration?_configurationForm
  rw [configurationsOf, List.filterMap_map, hc, List.filterMap_some]
  exact foldl_gather [] h

theorem configurations_map (h : cs.names.Nodup) :
    configurations (.list (cs.map configurationForm)) = .ok cs := by
  rw [configurations, items_list, Except.map, configurationsOf_map h]

theorem bindings_map (bs : Bindings) : bindings (.list (bs.map bindingForm)) = .ok bs := by
  rw [bindings, items_list, Except.map, bindingsOf_map]

theorem textOr_str (s : String) {other : Form} (h : s = "" → other.text = "") :
    textOr (.str s) other = s := by
  by_cases hs : s = ""
  case pos => simp [textOr, Form.isVoid, hs, h hs]
  case neg => simp [textOr, Form.isVoid, hs, Form.text, Form.name?]

theorem target?_targetForm (h : t.configurations.names.Nodup) :
    target? (targetForm classOf t) = some (.ok t) := by
  have hs : items (slot (slots (targetSlots t)) "source") = .ok (t.sources.map .str) :=
    items_list _
  have hc : configurations (slot (slots (targetSlots t)) "configuration-variables") =
    .ok t.configurations := configurations_map h
  have hn : textOr (slot (slots (targetSlots t)) "name") (.str t.name) = t.name :=
    textOr_str t.name id
  have hp : textOr (slot (slots (targetSlots t)) "path") (.str "") = t.path :=
    textOr_str t.path fun _ => rfl
  have ht : (t.sources.map Form.str).map Form.text = t.sources := by
    rw [List.map_map]
    exact List.map_id _
  simp only [target?, targetForm, hs, hc, hn, hp, ht]

theorem mapM_ok {α : Type} (l : List α) :
    (l.map fun a => (.ok a : Except Error α)).mapM id = .ok l := by
  induction l
  case nil => rfl
  case cons a l hi =>
    rw [List.map_cons, List.mapM_cons, hi]
    rfl

theorem targets_map {ts : List Target} (h : ∀ t ∈ ts, t.configurations.names.Nodup) :
    targets (.list (.sym listName :: ts.map (targetForm classOf))) = .ok ts := by
  have ht : (ts.map (targetForm classOf)).filterMap target? = ts.map .ok := by
    rw [List.filterMap_map, ← List.filterMap_eq_map']
    exact List.filterMap_congr fun t ht => target?_targetForm (h t ht)
  have hl : listItems (.list (.sym listName :: ts.map (targetForm classOf))) =
    ts.map (targetForm classOf) := rfl
  rw [targets, hl, ht]
  exact mapM_ok ts

theorem project_slotForms (cwd root : String) (h : d.IsWritable) :
    project cwd root (.str d.name :: d.slotForms classOf) = .ok (Project.settle cwd
      { Project.bare root (.described d.bindings d.configurations d.configuration) with
        name := .text d.name
        targets := .known d.targets }) := by
  have ht : targets (slot (slots (d.slotForms classOf)) "targets") = .ok d.targets :=
    targets_map h.targets
  have hb : bindings (slot (slots (d.slotForms classOf)) "variables") = .ok d.bindings :=
    bindings_map d.bindings
  have hc : configurations (slot (slots (d.slotForms classOf)) "configuration-variables") =
    .ok d.configurations := configurations_map h.configurations
  have hn : textOr (slot (slots (d.slotForms classOf)) "name") (.str d.name) = d.name :=
    textOr_str d.name id
  have hd : textOr (slot (slots (d.slotForms classOf)) "configuration-default")
    (.str defaultConfiguration) = d.configuration :=
    textOr_str d.configuration fun he => absurd he h.configuration
  simp only [project, List.tail_cons, List.head?_cons, Option.getD_some, ht, hb, hc, hn, hd]

theorem not_mem_of_isAtom {s : String} (h : IsAtom s) : '\r' ∉ s.toList := by
  intro hm
  have hd : Token.isDelimiter '\r' = true := by decide
  simp [h.formed.right _ hm] at hd

theorem not_mem_written (hd : d.IsWritable) (hc : ∀ t ∈ d.targets, IsSymbol (classOf t)) :
    '\r' ∉ (d.written classOf).toList := by
  have ha : ∀ s ∈ reserved, '\r' ∉ s.toList := by decide
  rw [Description.written, String.toList_ofList]
  refine Tree.not_mem_written (by decide) _ <| tree_uses ha hd.strings fun t ht => ?_
  exact not_mem_of_isAtom (hc t ht).toIsAtom

theorem load_written {w : World} {root : String} {executable : Bool} (hd : d.IsWritable)
    (hc : ∀ t ∈ d.targets, IsSymbol (classOf t))
    (hf : w.locate (path root).text = .ok (.file (.text (d.written classOf)) executable)) :
    ∃ p, load w root = .ok p ∧ p.name = .text d.name ∧ p.targets = .known d.targets ∧
      p.variant = .described d.bindings d.configurations d.configuration := by
  have hw := World.read_of_file hf (not_mem_written hd hc)
  have ha : (d.tree classOf).Uses (fun _ => True) IsAtom :=
    tree_uses isAtom_of_reserved (fun _ _ => trivial) fun t ht => (hc t ht).toIsAtom
  have hr : SExpr.read (d.written classOf) = .ok [d.form classOf] := by
    rw [Description.written, Tree.read_written ha.right, tree_value hc]
  have hp : [d.form classOf].findSome? projectForm? =
    some (.str d.name :: d.slotForms classOf) := rfl
  have hn : (Value.text d.name).isVoid = false := by
    simpa [Value.isVoid] using hd.name
  have hl : load w root = ofText w.cwd root (d.written classOf) := by
    unfold load
    simp only [hw]
  rw [hl, ofText, hr]
  simp only [hp, project_slotForms w.cwd root hd]
  refine ⟨_, rfl, ?_, rfl, rfl⟩
  simp only [Project.settle, hn]
  rfl

-- Sources that could be taken for parts of a pair, and strings that need a backslash.
def dotted : Description where
  name           := "a\"b"
  targets        := [⟨"t", "", ["x", ".", "y"], [("debug", [("V", "nil")])]⟩]
  bindings       := [("list", "")]
  configurations := [("debug", []), ("\\", [(":name", ".")])]
  configuration  := "debug"

def describing (s : String) : World :=
  { World.bare with files := .directory .full [(fileName.toList, .file (.text s) false)] }

theorem locate_describing (s : String) :
    (describing s).locate (path "/").text = .ok (.file (.text s) false) :=
  have hp : (describing s).partsOf (path "/").text = [[], fileName.toList] := rfl
  (World.locate_eq_ok_iff (by decide +kernel) (by decide +kernel) hp (by decide) rfl).mpr rfl

theorem load_dotted :
    dotted.IsWritable ∧ IsSymbol "program" ∧ ∃ p,
      load (describing (dotted.written fun _ => "program")) "/" = .ok p ∧
      p.targets = .known dotted.targets := by
  have hd : dotted.IsWritable := ⟨by decide, by decide, by decide, by decide, by decide⟩
  have ha : IsAtom "program" := isAtom_of_isName (by decide)
  have hc : IsSymbol "program" := ⟨ha, by rfl⟩
  obtain ⟨p, hp, _, ht, _⟩ := load_written hd (fun _ _ => hc) (locate_describing _)
  exact ⟨hd, hc, p, hp, ht⟩

end SourceFlags.BuildDescription
