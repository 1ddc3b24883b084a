namespace SourceFlags

abbrev Table (α : Type) := List (String × α)

namespace Table

variable {α : Type}

def get? (t : Table α) (name : String) : Option α :=
  List.lookup name t

def has (t : Table α) (name : String) : Bool :=
  t.any (·.1 == name)

def names (t : Table α) : List String :=
  t.map (·.1)

def put : Table α → String → α → Table α
  | [], name, a => [(name, a)]
  | (n, b) :: t, name, a => if n = name then (n, a) :: t else (n, b) :: put t name a

def overlay (t u : Table α) : Table α :=
  u.foldl (fun t e => t.put e.1 e.2) t

def ofPairs (ps : List (String × α)) : Table α :=
  overlay [] ps

def erase : Table α → String → Table α
  | [], _ => []
  | (n, b) :: t, name => if n = name then t else (n, b) :: erase t name

theorem get?_put_self (t : Table α) (name : String) (a : α) :
    (t.put name a).get? name = some a := by
  induction t with
  | nil => simp [put, get?]
  | cons e t ih =>
    obtain ⟨n, b⟩ := e
    simp only [put]
    split
    next h => simp [get?, h]
    next h =>
      have : (name == n) = false := by simpa using fun e => h e.symm
      simp only [get?, List.lookup_cons, this] at ih ⊢
      exact ih

theorem get?_put_of_ne {t : Table α} {name other : String} (a : α) (h : other ≠ name) :
    (t.put name a).get? other = t.get? other := by
  induction t with
  | nil => simp [put, get?, List.lookup_cons, beq_false_of_ne h]
  | cons e t ih =>
    obtain ⟨n, b⟩ := e
    simp only [put]
    split
    next hn => simp [get?, List.lookup_cons, hn, beq_false_of_ne h]
    next hn =>
      simp only [get?, List.lookup_cons] at ih ⊢
      split <;> simp_all

theorem names_put (t : Table α) (name : String) (a : α) :
    (t.put name a).names = if name ∈ t.names then t.names else t.names ++ [name] := by
  induction t with
  | nil => simp [put, names]
  | cons e t ih =>
    obtain ⟨n, b⟩ := e
    simp only [names, put] at ih ⊢
    by_cases h : n = name
    · simp [h]
    · by_cases hm : name ∈ t.map (·.1) <;> simp [h, Ne.symm h, ih, hm]

end Table
end SourceFlags
