import SourceFlags.Proofs.Registry.Calls

namespace SourceFlags.Registry

structure Registration where
  type : ProjectType
  priority : Priority

def Registration.name (e : Registration) : String :=
  e.type.name

abbrev Registrations := List Registration

namespace Registrations

def names (es : Registrations) : List String :=
  es.map (·.name)

def firsts : Registrations → Registrations
  | []      => []
  | e :: es => e :: (firsts es).filter (·.name != e.name)

def tier (p : Priority) (es : Registrations) : Registrations :=
  es.firsts.filter (·.priority == p)

-- Unique types stand in front, the newest first, and then specific ones, the oldest first.
def leading (es : Registrations) : Registrations :=
  (es.tier .unique).reverse ++ es.tier .specific

def order (es : Registrations) : Registrations :=
  es.leading ++ es.tier .generic

def latest (es : Registrations) (e : Registration) : ProjectType :=
  ((es.reverse.find? (·.name == e.name)).getD e).type

-- What is listed for a name that `e` was the first to bring.
def entry (es : Registrations) (e : Registration) : ProjectType :=
  { es.latest e with isGeneric := e.priority == .generic }

def listing (es : Registrations) : List ProjectType :=
  es.order.map es.entry

end Registrations

structure Record where
  registrations : Registrations
  isSeeded : Bool

namespace Record

def empty : Record := ⟨[], false⟩

-- New specific types are registered once something has been seeded, all others at any time.
def admits (d : Record) (e : Registration) : Bool :=
  e.priority != .specific || d.isSeeded || d.registrations.names.contains e.name

def after (d : Record) : Call → Record
  | .seed ts      => ⟨d.registrations ++ ts.map (⟨·, .specific⟩), true⟩
  | .register t p =>
    if d.admits ⟨t, p⟩ then { d with registrations := d.registrations ++ [⟨t, p⟩] } else d

def run (d : Record) (cs : List Call) : Record :=
  cs.foldl after d

end Record

namespace Registrations

variable {es : Registrations} {e f : Registration}

theorem mem_firsts (h : f ∈ es.firsts) : f ∈ es := by
  induction es
  case nil => exact h
  case cons e es hi =>
    cases h
    case head   => exact List.mem_cons_self
    case tail h => exact List.mem_cons_of_mem _ <| hi (List.mem_of_mem_filter h)

theorem mem_names_firsts_iff {name : String} : name ∈ es.firsts.names ↔ name ∈ es.names := by
  induction es
  case nil => rfl
  case cons e es hi =>
    by_cases h : name = e.name
    case pos => simp [firsts, names, h]
    case neg =>
      simp only [firsts, names, List.map_cons, List.mem_cons, h, false_or] at hi ⊢
      rw [← hi]
      simp only [List.mem_map, List.mem_filter, bne_iff_ne]
      constructor <;> rintro ⟨f, hf, hn⟩
      case mp  => exact ⟨f, hf.left, hn⟩
      case mpr => exact ⟨f, ⟨hf, hn ▸ h⟩, hn⟩

theorem firsts_names_nodup (es : Registrations) : es.firsts.names.Nodup := by
  induction es
  case nil => exact List.nodup_nil
  case cons e es hi =>
    simp only [firsts, names, List.map_cons, List.nodup_cons]
    refine ⟨?_, hi.sublist <| List.filter_sublist.map _⟩
    simp

theorem firsts_append (es fs : Registrations) :
    firsts (es ++ fs) = es.firsts ++ fs.firsts.filter (!es.names.contains ·.name) := by
  induction es
  case nil => simp [firsts, names]
  case cons e es hi =>
    simp only [List.cons_append, firsts, hi, List.filter_append, List.filter_filter, names,
      List.map_cons]
    congr! 3
    funext f
    simp only [bne, List.contains_cons, Bool.not_or]

theorem firsts_snoc_of_mem (h : e.name ∈ es.names) : firsts (es ++ [e]) = es.firsts := by
  simp [firsts_append, firsts, h]

theorem firsts_snoc_of_new (h : e.name ∉ es.names) : firsts (es ++ [e]) = es.firsts ++ [e] := by
  simp [firsts_append, firsts, h]

theorem order_perm (es : Registrations) : List.Perm es.order es.firsts := by
  let others := es.firsts.filter fun e => !(e.priority == .unique)
  have hu := List.filter_append_perm (·.priority == .unique) es.firsts
  have hs : List.Perm (es.tier .specific ++ es.tier .generic) others := by
    have h := List.filter_append_perm (·.priority == .specific) others
    simp only [others, List.filter_filter] at h
    convert h using 3
    all_goals
      refine List.filter_congr fun e _ => ?_
      cases e.priority <;> rfl
  rw [order, leading, List.append_assoc]
  exact (List.Perm.append (List.reverse_perm _) hs).trans hu

theorem latest_name (es : Registrations) (e : Registration) : (es.latest e).name = e.name := by
  cases h : es.reverse.find? (·.name == e.name)
  case none => simp only [latest, h]; rfl
  case some f =>
    have hf := List.find?_some h
    simp only [latest, h]
    exact beq_iff_eq.mp hf

theorem latest_snoc_of_eq (h : f.name = e.name) : latest (es ++ [e]) f = e.type := by
  simp [latest, h]

theorem latest_snoc_of_ne (h : f.name ≠ e.name) : latest (es ++ [e]) f = es.latest f := by
  simp [latest, Ne.symm h]

@[simp]
theorem entry_name (es : Registrations) (e : Registration) : (es.entry e).name = e.name :=
  es.latest_name e

@[simp]
theorem entry_isGeneric (es : Registrations) (e : Registration) :
    (es.entry e).isGeneric = (e.priority == .generic) := rfl

theorem mem_tier {p : Priority} (h : e ∈ es.tier p) : e.priority = p := by
  simpa using List.of_mem_filter h

theorem mem_leading (h : e ∈ es.leading) : e.priority ≠ .generic := by
  intro hc
  simp [leading, tier, hc] at h

theorem entry_snoc_of_eq (h : f.name = e.name) :
    entry (es ++ [e]) f = { e.type with isGeneric := (es.entry f).isGeneric } := by
  simp only [entry, latest_snoc_of_eq h]

theorem entry_snoc_of_ne (h : f.name ≠ e.name) : entry (es ++ [e]) f = es.entry f := by
  simp only [entry, latest_snoc_of_ne h]

theorem listing_names (es : Registrations) : es.listing.map (·.name) = es.order.names := by
  simp [listing, names, Function.comp_def]

theorem listing_names_nodup (es : Registrations) : (es.listing.map (·.name)).Nodup := by
  rw [listing_names]
  exact (es.order_perm.map _).nodup_iff.mpr es.firsts_names_nodup

theorem mem_listing_names_iff {name : String} :
    name ∈ es.listing.map (·.name) ↔ name ∈ es.names := by
  rw [listing_names]
  exact (es.order_perm.map _).mem_iff.trans mem_names_firsts_iff

theorem mem_order_iff : e ∈ es.order ↔ e ∈ es.firsts :=
  es.order_perm.mem_iff

theorem isGeneric_iff {t : ProjectType} (h : t ∈ es.listing) :
    t.isGeneric = true ↔ t.name ∈ (es.tier .generic).names := by
  have ⟨f, hf, ht⟩ := List.mem_map.mp h
  rw [← ht, entry_isGeneric, entry_name, beq_iff_eq]
  constructor
  case mp =>
    intro hp
    have hm : f ∈ es.tier .generic := List.mem_filter.mpr ⟨mem_order_iff.mp hf, by simp [hp]⟩
    exact List.mem_map_of_mem hm
  case mpr =>
    intro hn
    have ⟨g, hg, he⟩ := List.mem_map.mp hn
    have hm := List.mem_of_mem_filter hg
    have : g = f := List.inj_on_of_nodup_map es.firsts_names_nodup hm (mem_order_iff.mp hf) he
    exact this ▸ mem_tier hg

theorem listing_generic_last (es : Registrations) :
    es.listing.Pairwise fun t u => t.isGeneric = true → u.isGeneric = true := by
  rw [listing, order, List.map_append, List.pairwise_append]
  have hl : ∀ t ∈ es.leading.map es.entry, t.isGeneric ≠ true := by
    simp only [List.mem_map, forall_exists_index, and_imp]
    rintro _ f hf rfl
    simpa using mem_leading hf
  have hg : ∀ t ∈ (es.tier .generic).map es.entry, t.isGeneric = true := by
    simp only [List.mem_map, forall_exists_index, and_imp]
    rintro _ f hf rfl
    simpa using mem_tier hf
  refine ⟨?leading, ?generic, fun t ht _ _ hc => absurd hc (hl t ht)⟩
  case leading => exact List.pairwise_of_forall_mem_list fun t ht _ _ hc => absurd hc (hl t ht)
  case generic => exact List.pairwise_of_forall_mem_list fun _ _ u hu _ => hg u hu

end Registrations
end SourceFlags.Registry
