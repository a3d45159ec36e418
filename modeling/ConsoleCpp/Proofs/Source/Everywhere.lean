/-
What holds everywhere in a source tree. The traversal lists a node before what stands below it, so
its list for a stack falls apart into the lists for the nodes on it, and a property holds of every
node listed exactly if it holds at the top and everywhere below.
-/
import ConsoleCpp.Source.Walk

namespace ConsoleCpp

namespace Node

theorem walkFrom_append (intoFunctions : Bool) (xs ys : List Node) :
    walkFrom intoFunctions (xs ++ ys) = walkFrom intoFunctions xs ++ walkFrom intoFunctions ys := by
  fun_induction walkFrom intoFunctions xs with
  | case1 => rfl
  | case2 node stack ih =>
    rw [List.cons_append, walkFrom, ← List.append_assoc, ih, List.cons_append]

/-- The property holds of the node and of every node below it, those of functions included. -/
def Everywhere (p : Node → Prop) (node : Node) : Prop := ∀ n ∈ walkFrom true [node], p n

variable {p q : Node → Prop} {node : Node}

theorem visited_true (node : Node) : node.visited true = node.children := by
  unfold visited
  split
  · rfl
  · rfl

theorem forall_walkFrom_iff {stack : List Node} :
    (∀ n ∈ walkFrom true stack, p n) ↔ ∀ node ∈ stack, node.Everywhere p := by
  induction stack with
  | nil => simp [walkFrom]
  | cons node stack ih =>
    rw [← List.singleton_append, walkFrom_append, List.forall_mem_append, ih, List.singleton_append,
      List.forall_mem_cons]
    rfl

/-- At the top and everywhere below. -/
theorem everywhere_iff :
    node.Everywhere p ↔ p node ∧ ∀ child ∈ node.children, child.Everywhere p := by
  rw [Everywhere, walkFrom, List.forall_mem_cons, List.append_nil, visited_true,
    forall_walkFrom_iff]

theorem Everywhere.here (h : node.Everywhere p) : p node := (everywhere_iff.1 h).1

theorem Everywhere.child {child : Node} (h : node.Everywhere p) (hc : child ∈ node.children) :
    child.Everywhere p :=
  (everywhere_iff.1 h).2 child hc

theorem Everywhere.imp (h : node.Everywhere p) (hpq : ∀ n, p n → q n) : node.Everywhere q :=
  fun n hn => hpq n (h n hn)

theorem visited_subset (intoFunctions : Bool) (node : Node) :
    node.visited intoFunctions ⊆ node.children := by
  unfold visited
  split
  · split
    · exact List.Subset.refl _
    · exact List.nil_subset _
  · exact List.Subset.refl _

/-- A traversal, whether or not it enters functions, comes only to nodes that stand somewhere below. -/
theorem everywhere_of_mem_walkFrom {intoFunctions : Bool} {stack : List Node}
    (h : ∀ node ∈ stack, node.Everywhere p) :
    ∀ n ∈ walkFrom intoFunctions stack, n.Everywhere p := by
  fun_induction walkFrom intoFunctions stack with
  | case1 => exact nofun
  | case2 node stack ih =>
    obtain ⟨hnode, hstack⟩ := List.forall_mem_cons.1 h
    refine List.forall_mem_cons.2 ⟨hnode, ih (List.forall_mem_append.2 ⟨fun child hc => ?_, hstack⟩)⟩
    exact hnode.child (visited_subset intoFunctions node hc)

end Node

/-- A property of every node of a statement list. -/
theorem forall_walk_iff {p : Node → Prop} {statements : List Stmt} :
    (∀ n ∈ walk true statements, p n) ↔ ∀ s ∈ statements, (Node.stmt s).Everywhere p := by
  rw [walk, Node.forall_walkFrom_iff, List.forall_mem_map]

end ConsoleCpp
