namespace SourceFlags

variable {ε α β : Type} {x : Except ε α} {b : β}

theorem exists_of_map_eq_ok {f : α → β} (h : x.map f = .ok b) : ∃ a, x = .ok a ∧ f a = b := by
  cases x
  case error => contradiction
  case ok a  => exact ⟨a, rfl, Except.ok.inj h⟩

theorem exists_of_bind_eq_ok {f : α → Except ε β} (h : x.bind f = .ok b) :
    ∃ a, x = .ok a ∧ f a = .ok b := by
  cases x
  case error => contradiction
  case ok a  => exact ⟨a, rfl, h⟩

theorem map_nil_append (x : Except ε (List α)) : x.map ([] ++ ·) = x := by
  cases x <;> rfl

theorem map_append_append (l l' : List α) (x : Except ε (List α)) :
    (x.map (l' ++ ·)).map (l ++ ·) = x.map (l ++ l' ++ ·) := by
  cases x
  case error => rfl
  case ok    => exact congrArg Except.ok (List.append_assoc ..).symm

theorem mem_of_findM? {f : α → Except ε Bool} {l : List α} {a : α}
    (h : l.findM? f = .ok (some a)) : a ∈ l := by
  induction l
  case nil => cases h
  case cons c l hi =>
    obtain ⟨found, _, h⟩ := exists_of_bind_eq_ok h
    cases found
    case false => exact List.mem_cons_of_mem c (hi h)
    case true  => cases h; exact List.mem_cons_self

end SourceFlags
