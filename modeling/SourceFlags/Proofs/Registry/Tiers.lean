import SourceFlags.Proofs.Registry.Listing
import SourceFlags.Registry.Builtin

namespace SourceFlags.Registry

variable {es : Registrations} {e : Registration}

theorem replace_eq_map {t : ProjectType} {ts : List ProjectType} (h : (ts.map (·.name)).Nodup) :
    replace t ts = ts.map fun old =>
      if old.name = t.name then { t with isGeneric := old.isGeneric } else old := by
  induction ts
  case nil => rfl
  case cons old ts hi =>
    have ⟨hn, hd⟩ := List.nodup_cons.mp h
    simp only [replace, List.map_cons]
    split
    case isFalse => rw [hi hd]
    case isTrue ho =>
      congr 1
      refine (List.map_id ts).symm.trans <| List.map_congr_left fun u hu => ?_
      have hne : u.name ≠ t.name := fun hc => hn <| List.mem_map.mpr ⟨u, hu, hc.trans ho.symm⟩
      exact (if_neg hne).symm

namespace Registrations

theorem order_snoc_of_mem (h : e.name ∈ es.names) : order (es ++ [e]) = es.order := by
  simp only [order, leading, tier, firsts_snoc_of_mem h]

theorem tier_snoc_of_new (h : e.name ∉ es.names) (p : Priority) :
    tier p (es ++ [e]) = es.tier p ++ if e.priority = p then [e] else [] := by
  simp only [tier, firsts_snoc_of_new h, List.filter_append]
  by_cases hp : e.priority = p <;> simp [hp]

-- A known name keeps its place and its tier, whatever the priority is.
theorem replace_listing (h : e.name ∈ es.names) :
    replace e.type es.listing = listing (es ++ [e]) := by
  rw [replace_eq_map es.listing_names_nodup, listing, listing, order_snoc_of_mem h, List.map_map]
  refine List.map_congr_left fun f _ => ?_
  simp only [Function.comp_apply, entry_name]
  split
  case isTrue hf  => exact (entry_snoc_of_eq hf).symm
  case isFalse hf => exact (entry_snoc_of_ne hf).symm

theorem tier_subset (es : Registrations) (p : Priority) : es.tier p ⊆ es :=
  fun _ hf => mem_firsts <| List.mem_of_mem_filter hf

theorem leading_subset (es : Registrations) : es.leading ⊆ es := by
  intro f hf
  cases List.mem_append.mp hf
  case inl hf => exact es.tier_subset _ <| List.mem_reverse.mp hf
  case inr hf => exact es.tier_subset _ hf

theorem map_entry_snoc {fs : Registrations} (hs : fs ⊆ es) (h : e.name ∉ es.names) :
    fs.map (entry (es ++ [e])) = fs.map es.entry := by
  refine List.map_congr_left fun f hf => entry_snoc_of_ne fun hc => h ?_
  exact hc ▸ List.mem_map_of_mem (hs hf)

theorem entry_snoc_self (hp : e.priority ≠ .generic) (hf : e.type.isGeneric = false) :
    entry (es ++ [e]) e = e.type := by
  rw [entry_snoc_of_eq rfl, entry_isGeneric, beq_false_of_ne hp, ← hf]

theorem split_listing (es : Registrations) :
    es.listing.takeWhile (!·.isGeneric) = es.leading.map es.entry ∧
    es.listing.dropWhile (!·.isGeneric) = (es.tier .generic).map es.entry := by
  have hl : ∀ t ∈ es.leading.map es.entry, (!t.isGeneric) = true := by
    simp only [List.mem_map, forall_exists_index, and_imp]
    rintro _ f hf rfl
    simpa using mem_leading hf
  rw [listing, order, List.map_append, List.takeWhile_append_of_pos hl,
    List.dropWhile_append_of_pos hl]
  cases h : es.tier .generic
  case nil => simp
  case cons f fs =>
    have hf : f ∈ es.tier .generic := h ▸ List.mem_cons_self
    simp [mem_tier hf]

theorem insert_listing (h : e.name ∉ es.names) (hf : e.type.isGeneric = false) :
    insert e.type e.priority es.listing = listing (es ++ [e]) := by
  have hl := map_entry_snoc es.leading_subset h
  have hg := map_entry_snoc (es.tier_subset .generic) h
  have ⟨ht, hd⟩ := es.split_listing
  cases hp : e.priority
  case unique =>
    have ho : order (es ++ [e]) = e :: es.order := by
      simp [order, leading, tier_snoc_of_new h, hp]
    have he : entry (es ++ [e]) e = e.type := entry_snoc_self (by simp [hp]) hf
    rw [insert, listing, listing, ho, List.map_cons, he, order, List.map_append, List.map_append,
      hl, hg]
  case specific =>
    have ho : order (es ++ [e]) = es.leading ++ e :: es.tier .generic := by
      simp [order, leading, tier_snoc_of_new h, hp]
    have he : entry (es ++ [e]) e = e.type := entry_snoc_self (by simp [hp]) hf
    rw [insert, ht, hd, listing, ho, List.map_append, List.map_cons, he, hl, hg]
  case generic =>
    have ho : order (es ++ [e]) = es.order ++ [e] := by
      simp [order, leading, tier_snoc_of_new h, hp]
    have he : entry (es ++ [e]) e = { e.type with isGeneric := true } := by
      rw [entry_snoc_of_eq rfl, entry_isGeneric, hp]
      rfl
    rw [insert, listing, listing, ho, List.map_append, List.map_singleton, he, order,
      List.map_append, List.map_append, hl, hg]

theorem place_listing (es : Registrations) (hf : e.type.isGeneric = false) :
    place e.type e.priority es.listing = listing (es ++ [e]) := by
  simp only [place]
  split
  case isTrue h =>
    exact replace_listing <| mem_listing_names_iff.mp <| any_name_iff.mp h
  case isFalse h =>
    exact insert_listing (fun hc => h <| any_name_iff.mpr <| mem_listing_names_iff.mpr hc) hf

end Registrations

structure Matches (r : Registry) (d : Record) : Prop where
  types    : r.types = d.registrations.listing
  isSeeded : r.isSeeded = d.isSeeded

namespace Matches

variable {r : Registry} {d : Record}

theorem empty : Matches .empty .empty := ⟨rfl, rfl⟩

theorem names_mem_iff (m : Matches r d) {name : String} :
    name ∈ r.names ↔ name ∈ d.registrations.names := by
  rw [names, m.types, Registrations.mem_listing_names_iff]

theorem refuses_iff (m : Matches r d) {t : ProjectType} {p : Priority} :
    r.Refuses t p ↔ d.admits ⟨t, p⟩ = false := by
  simp [Refuses, Record.admits, m.names_mem_iff, m.isSeeded, Registration.name, and_assoc]

theorem seed (m : Matches r d) {ts : List ProjectType} (hf : ∀ t ∈ ts, t.isGeneric = false) :
    Matches (r.seed ts) (d.after (.seed ts)) := by
  refine ⟨?_, rfl⟩
  obtain ⟨es, _⟩ := d
  simp only [Registry.seed, Record.after, m.types]
  clear m
  induction ts generalizing es
  case nil => simp
  case cons t ts hi =>
    obtain ⟨ht, hts⟩ := List.forall_mem_cons.mp hf
    have hp := Registrations.place_listing es (e := ⟨t, .specific⟩) ht
    rw [List.foldl_cons, hp, hi hts, List.map_cons, List.append_assoc, List.singleton_append]

theorem register (m : Matches r d) {t : ProjectType} (hf : t.isGeneric = false) (p : Priority) :
    Matches (r.after (.register t p)) (d.after (.register t p)) := by
  have hi := m.refuses_iff (t := t) (p := p)
  by_cases h : r.Refuses t p
  case pos =>
    simp only [Registry.after, answer, register_eq_error h, Record.after, hi.mp h]
    exact m
  case neg =>
    have ha : d.admits ⟨t, p⟩ = true := by simpa using mt hi.mpr h
    have hp := d.registrations.place_listing (e := ⟨t, p⟩) hf
    simp only [Registry.after, answer, register_eq_ok h, Record.after, ha]
    exact ⟨m.types ▸ hp, m.isSeeded⟩

theorem after (m : Matches r d) {c : Call} (hf : c.IsFresh) : Matches (r.after c) (d.after c) := by
  cases c
  case seed ts      => exact m.seed hf
  case register t p => exact m.register (hf t List.mem_cons_self) p

theorem run (m : Matches r d) {cs : List Call} (hf : ∀ c ∈ cs, c.IsFresh) :
    Matches (r.run cs) (d.run cs) := by
  induction cs generalizing r d
  case nil => exact m
  case cons c cs hi =>
    have ⟨hc, hcs⟩ := List.forall_mem_cons.mp hf
    exact hi (m.after hc) hcs

end Matches

theorem run_lists_registrations {cs : List Call} (hf : ∀ c ∈ cs, c.IsFresh) :
    let r := empty.run cs
    let es := (Record.empty.run cs).registrations
    r.types = es.listing ∧
    r.names.Nodup ∧
    (∀ t ∈ r.types, t.isGeneric = true ↔ t.name ∈ (es.tier .generic).names) ∧
    (r.types.Pairwise fun t u => t.isGeneric = true → u.isGeneric = true) ∧
    ∀ t p,
      ((∃ e, r.answer (.register t p) = .error e) ↔
        p = .specific ∧ (∀ c ∈ cs, c.isSeed = false) ∧ t.name ∉ r.names) ∧
      ∀ e, r.answer (.register t p) = .error e → r.after (.register t p) = r := by
  intro r es
  -- Every call keeps the registry and the record of calls in step.
  have m := Matches.empty.run hf
  refine ⟨m.types, ?nodup, ?tiers, ?last, fun t p => ⟨?fails, fun _ => after_of_error⟩⟩
  case nodup =>
    rw [names, m.types]
    exact es.listing_names_nodup
  case tiers => exact m.types ▸ fun t => es.isGeneric_iff
  case last  => exact m.types ▸ es.listing_generic_last
  case fails => simp [answer, register_fails_iff, Refuses, r, run_isSeeded, empty]

-- A name that is registered again as a unique one stays generic, and has the marker of the last
-- type.
def mixedCalls : List Call :=
  let named := fun name marker => marked name marker true (Recipe.nothing.load [])
  [.register (named "hg" ".hg") .specific, .register (named "git" ".git") .generic,
   .seed [named "make" "Makefile", named "cmake" "CMakeLists.txt"],
   .register (named "own" "own.txt") .unique, .register (named "git" "git.txt") .unique]

theorem run_lists_mixed_registrations :
    (∀ c ∈ mixedCalls, c.IsFresh) ∧
    (empty.run mixedCalls).types = (Record.empty.run mixedCalls).registrations.listing ∧
    (empty.run mixedCalls).names = ["own", "make", "cmake", "git"] ∧
    (empty.run mixedCalls).types.map (·.isGeneric) = [false, false, false, true] := by
  have hf : ∀ c ∈ mixedCalls, c.IsFresh := by
    simp [mixedCalls, Call.IsFresh, Call.types, marked]
  have ht := (run_lists_registrations hf).left
  refine ⟨hf, ht, ?names, ?tiers⟩
  case names => rw [names, ht]; decide
  case tiers => rw [ht]; decide

end SourceFlags.Registry
