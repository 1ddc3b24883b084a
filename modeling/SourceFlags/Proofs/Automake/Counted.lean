import Mathlib.Data.List.Induction
import SourceFlags.Automake.Bindings
import SourceFlags.Proofs.Table
import SourceFlags.Proofs.Text.Trim

namespace SourceFlags.Automake

open Text

-- The assignments of a name that count: those from the last one that sets it, or all if none does.
def counted : List Assignment → List Assignment
  | []      => []
  | a :: as => if as.all (·.appends) then a :: as else counted as

def joined (as : List Assignment) : String :=
  String.ofList <| join [' '] <| ((counted as).map (·.value.toList)).filter (!·.isEmpty)

def extended (old : Option String) (a : Assignment) : String :=
  match a.appends, old with
  | true, some old => String.ofList (trim (old.toList ++ ' ' :: a.value.toList))
  | _, _           => a.value

def Assignment.IsTrimmed (a : Assignment) : Prop :=
  trim a.value.toList = a.value.toList

instance (a : Assignment) : Decidable a.IsTrimmed :=
  inferInstanceAs <| Decidable (trim a.value.toList = a.value.toList)

variable {as : List Assignment} {a : Assignment}

theorem assign_eq (t : Table String) (a : Assignment) :
    assign t a = t.put a.name (extended (t.get? a.name) a) := by
  unfold assign extended
  cases a.appends <;> cases t.get? a.name <;> rfl

theorem extended_none (a : Assignment) : extended none a = a.value := by
  unfold extended
  cases a.appends <;> rfl

theorem extended_of_sets (h : a.appends = false) (old : Option String) :
    extended old a = a.value := by
  simp only [extended, h]

theorem toList_extended_of_appends (h : a.appends = true) (old : String) :
    (extended (some old) a).toList = trim (old.toList ++ ' ' :: a.value.toList) := by
  simp only [extended, h, String.toList_ofList]

theorem names_foldl_assign (as : List Assignment) :
    (as.foldl assign []).names = (as.map (·.name)).eraseDups := by
  induction as using List.reverseRecOn
  case nil => rfl
  case append_singleton as a hi =>
    have hr : ∀ names : List String,
        [a.name].removeAll names = if a.name ∈ names then [] else [a.name] := fun names => by
      by_cases h : a.name ∈ names <;> simp [List.removeAll, h]
    rw [List.foldl_concat, assign_eq, Table.names_put, hi, List.map_append, List.map_singleton,
      List.eraseDups_append, hr]
    simp only [List.mem_eraseDups]
    split
    case isTrue  => rw [List.eraseDups_nil, List.append_nil]
    case isFalse => rfl

theorem names_foldl_assign_nodup (as : List Assignment) : (as.foldl assign []).names.Nodup :=
  List.foldlRecOn (motive := fun t : Table String => t.names.Nodup) as _ List.nodup_nil
    fun t h a _ => assign_eq t a ▸ Table.names_put_nodup h a.name _

theorem get?_foldl_assign (as : List Assignment) (t : Table String) (name : String) :
    (as.foldl assign t).get? name =
      (as.filter (·.name = name)).foldl (fun old a => some (extended old a)) (t.get? name) := by
  induction as generalizing t
  case nil => rfl
  case cons a as hi =>
    rw [List.foldl_cons, hi, assign_eq]
    by_cases h : a.name = name
    case pos => simp [← h, Table.get?_put_self]
    case neg => simp [h, Table.get?_put_of_ne _ (Ne.symm h)]

theorem counted_concat (as : List Assignment) (a : Assignment) :
    counted (as ++ [a]) = if a.appends then counted as ++ [a] else [a] := by
  induction as
  case nil => simp [counted]
  case cons b as hi =>
    rw [List.cons_append, counted, counted, hi, List.all_append, List.all_cons, List.all_nil]
    cases a.appends
    case false => simp
    case true  => cases as.all (·.appends) <;> simp

theorem mem_of_mem_counted (h : a ∈ counted as) : a ∈ as := by
  induction as
  case nil => exact h
  case cons b as hi =>
    rw [counted] at h
    split at h
    case isTrue  => exact h
    case isFalse => exact List.mem_cons_of_mem _ (hi h)

theorem joined_concat (h : ∀ b ∈ as, b.IsTrimmed) (ha : a.IsTrimmed) (hp : a.appends = true) :
    (joined (as ++ [a])).toList = trim ((joined as).toList ++ ' ' :: a.value.toList) := by
  simp only [joined, counted_concat, hp, if_true, String.toList_ofList, List.map_append,
    List.filter_append]
  refine (trim_join_concat (fun l hl => ?_) (fun l hl => ?_) ha).symm
  case refine_1 =>
    have ⟨b, hb, hv⟩ := List.mem_map.mp (List.mem_of_mem_filter hl)
    exact hv ▸ h b (mem_of_mem_counted hb)
  case refine_2 => simpa using List.of_mem_filter hl

theorem joined_of_counted (h : counted as = [a]) : joined as = a.value := by
  simp only [joined, h, List.map_singleton, List.filter_cons, List.filter_nil]
  split
  case isTrue     => exact String.ofList_toList
  case isFalse he =>
    have hv : a.value.toList = [] := by simpa using he
    rw [← String.toList_inj, hv, join, String.toList_ofList]

-- The last assignment either sets the name anew or goes behind what those before it have made.
theorem foldl_extended (h : ∀ a ∈ as, a.IsTrimmed) :
    as.foldl (fun old a => some (extended old a)) none =
      if as = [] then none else some (joined as) := by
  induction as using List.reverseRecOn
  case nil => rfl
  case append_singleton as a hi =>
    have ⟨has, ha⟩ := List.forall_mem_append.mp h
    rw [List.foldl_concat, hi has, if_neg (List.concat_ne_nil a as), Option.some_inj]
    cases hp : a.appends
    case false =>
      have hc : counted (as ++ [a]) = [a] := by rw [counted_concat, hp]; rfl
      rw [joined_of_counted hc, extended_of_sets hp]
    case true =>
      by_cases hn : as = []
      case pos => rw [hn, if_pos rfl, extended_none, List.nil_append, joined_of_counted rfl]
      case neg =>
        rw [if_neg hn, ← String.toList_inj, joined_concat has (ha a List.mem_cons_self) hp,
          toList_extended_of_appends hp]

theorem foldl_assign (h : ∀ a ∈ as, a.IsTrimmed) :
    as.foldl assign [] =
      Table.tabulate (as.map (·.name)).eraseDups fun name =>
        joined (as.filter (·.name = name)) := by
  rw [← names_foldl_assign]
  refine Table.eq_tabulate (names_foldl_assign_nodup as) fun name hn => ?_
  rw [names_foldl_assign, List.mem_eraseDups, List.mem_map] at hn
  have hf : as.filter (·.name = name) ≠ [] :=
    have ⟨a, ha, he⟩ := hn
    List.ne_nil_of_mem (List.mem_filter.mpr ⟨ha, by simpa using he⟩)
  have ht : ∀ a ∈ as.filter (·.name = name), a.IsTrimmed :=
    fun a ha => h a (List.mem_of_mem_filter ha)
  rw [get?_foldl_assign]
  exact (foldl_extended ht).trans (if_neg hf)

end SourceFlags.Automake
