/-
What the nodes of a source tree declare, and the symbol table that comes of it: declared one after
the other, every name keeps the type it was last declared with.
-/
import ConsoleCpp.Source.Symbols
import ConsoleCpp.Source.Walk

namespace ConsoleCpp

/-! ## Declarations of nodes -/

/-- The name that a node declares, with its type. -/
def Node.declaration? : Node → Option (String × String)
  | .stmt (.declaration type name _) => some (name, type)
  | .stmt (.prototype type name _) => some (name, type)
  | .stmt (.function type name _ _) => some (name, type)
  | .param p => some (p.name, p.type)
  | _ => none

/-- What nodes declare, in their order. -/
def declarations (nodes : List Node) : List (String × String) := nodes.filterMap Node.declaration?

/-- The type with which a name is last declared, if it is declared at all. -/
def lastDeclared (nodes : List Node) (name : String) : Option String :=
  (((declarations nodes).filter (·.1 == name)).getLast?).map Prod.snd

theorem declarations_append (xs ys : List Node) :
    declarations (xs ++ ys) = declarations xs ++ declarations ys :=
  List.filterMap_append

/-! ## Symbol tables -/

namespace SymbolTable

/-- Declares names one after the other. -/
def declareAll (table : SymbolTable) (ds : List (String × String)) : SymbolTable :=
  ds.foldl (fun table d => table.declare d.1 d.2) table

theorem declareAll_append (table : SymbolTable) (xs ys : List (String × String)) :
    table.declareAll (xs ++ ys) = (table.declareAll xs).declareAll ys :=
  List.foldl_append

/-- A new type for the entries of a name. -/
theorem lookup_map_entry (entries : List (String × String)) (name other type : String) :
    (entries.map fun entry => if entry.1 == name then (name, type) else entry).lookup other =
      if other = name then (entries.lookup other).map fun _ => type else entries.lookup other := by
  induction entries with
  | nil => simp
  | cons entry entries ih =>
    obtain ⟨key, value⟩ := entry
    rw [List.map_cons]
    by_cases hk : key = name
    · subst hk
      by_cases ho : other = key
      · simp [ho]
      · simp only [beq_self_eq_true, if_true, List.lookup_cons, beq_false_of_ne ho, ih, if_neg ho]
    · rw [if_neg (by simpa using hk), List.lookup_cons, List.lookup_cons, ih]
      by_cases ho : other = key
      · subst ho
        simp [hk]
      · simp only [beq_false_of_ne ho]

/-- A declared name has its new type, and all others keep theirs. -/
theorem lookup_declare (table : SymbolTable) (name other type : String) :
    (table.declare name type).lookup other =
      if other = name then some type else table.lookup other := by
  unfold declare
  split
  · rename_i hc
    rw [lookup, lookup_map_entry]
    split
    · rename_i ho
      subst ho
      obtain ⟨old, he⟩ := Option.isSome_iff_exists.1 hc
      exact congrArg (Option.map fun _ => type) he
    · rfl
  · rename_i hc
    rw [lookup, List.lookup_append, List.lookup_cons]
    by_cases ho : other = name
    · subst ho
      have hn : table.entries.lookup other = none := Option.not_isSome_iff_eq_none.1 hc
      rw [hn, if_pos rfl, beq_self_eq_true]
      rfl
    · rw [if_neg ho, beq_false_of_ne ho]
      exact Option.or_none

/-- What was declared last counts. -/
theorem lookup_declareAll (table : SymbolTable) (ds : List (String × String)) (name : String) :
    (table.declareAll ds).lookup name =
      (((ds.filter (·.1 == name)).getLast?).map Prod.snd).or (table.lookup name) := by
  induction ds generalizing table with
  | nil => rfl
  | cons d ds ih =>
    change ((table.declare d.1 d.2).declareAll ds).lookup name = _
    rw [ih, lookup_declare, List.filter_cons]
    by_cases hd : name = d.1
    · subst hd
      rw [if_pos rfl, if_pos (beq_self_eq_true _), List.getLast?_cons]
      cases (ds.filter (·.1 == d.1)).getLast? <;> rfl
    · rw [if_neg hd, if_neg (by simpa using Ne.symm hd)]

/-- From no symbols at all, a name has the type of its last declaration. -/
theorem lookup_empty_declareAll (nodes : List Node) (name : String) :
    (empty.declareAll (declarations nodes)).lookup name = lastDeclared nodes name := by
  rw [lookup_declareAll]
  exact Option.or_none

theorem mem_keys_iff (table : SymbolTable) (name : String) :
    name ∈ table.entries.map Prod.fst ↔ (table.lookup name).isSome = true := by
  rw [lookup, List.lookup_isSome_iff, List.mem_map]
  exact exists_congr fun entry => and_congr_right fun _ => by rw [beq_iff_eq, eq_comm]

end SymbolTable

/-- A name has a last declaration exactly if it has any. -/
theorem lastDeclared_isSome_iff (nodes : List Node) (name : String) :
    (lastDeclared nodes name).isSome = true ↔ ∃ type, (name, type) ∈ declarations nodes := by
  rw [lastDeclared, Option.isSome_map, List.getLast?_isSome]
  constructor
  · intro h
    obtain ⟨d, hd⟩ := List.exists_mem_of_ne_nil _ h
    obtain ⟨hm, he⟩ := List.mem_filter.1 hd
    exact ⟨d.2, beq_iff_eq.1 he ▸ hm⟩
  · rintro ⟨type, hd⟩
    exact List.ne_nil_of_mem (List.mem_filter.2 ⟨hd, beq_self_eq_true name⟩)

end ConsoleCpp
