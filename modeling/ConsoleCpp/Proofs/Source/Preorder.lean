/-
The order in which the traversal lists the nodes of source trees. It keeps a stack of nodes still to
visit, and lists what recursion down the trees lists: a node, then what stands below it, branch by
branch. A place in a list of trees is told by the branches that lead to it, the first of which is
the number of the tree. In the order of their branches, a place comes before those below it and
those further on; the traversal comes to every place once, in this order.

The invariant is that what is listed so far, with what recursion lists for the nodes on the stack,
stays the same from round to round.
-/
import ConsoleCpp.Proofs.Source.Everywhere

namespace ConsoleCpp

/-! ## Recursion down the trees -/

namespace Expr

mutual

/-- The nodes of an expression, each before those below it. -/
def preorder (e : Expr) : List Node :=
  .expr e ::
    match e with
    | .number _ | .string _ _ | .char _ | .bool _ | .name _ | .newObject _ => []
    | .unary _ operand | .stepAfter _ operand => preorder operand
    | .binary _ left right | .scope left right => preorder left ++ preorder right
    | .assign _ target value => preorder target ++ preorder value
    | .call callee args => preorder callee ++ preorderAll args
    | .member _ target _ => preorder target
    | .index target key => preorder target ++ preorder key
    | .list element => preorder element
    | .newArray _ size => preorder size

def preorderAll : List Expr → List Node
  | [] => []
  | e :: rest => preorder e ++ preorderAll rest

end

end Expr

namespace Stmt

mutual

/-- The nodes of a statement, each before those below it; of a function its own node alone, unless
functions are entered. -/
def preorder (intoFunctions : Bool) (s : Stmt) : List Node :=
  .stmt s ::
    match s with
    | .header _ | .usingSpace _ | .breakLoop | .continueLoop => []
    | .declaration _ _ initializer => Expr.preorderAll initializer.toList
    | .prototype _ _ params => params.map .param
    | .function _ _ params body =>
      if intoFunctions then
        params.map .param ++ .stmt (.block body) :: preorderAll intoFunctions body
      else []
    | .block statements => preorderAll intoFunctions statements
    | .input targets => Expr.preorderAll targets
    | .print parts => Expr.preorderAll parts
    | .ifElse condition thenStmt elseStmt =>
      condition.preorder ++ preorder intoFunctions thenStmt ++
        preorderOption intoFunctions elseStmt
    | .whileLoop condition body | .doLoop condition body =>
      condition.preorder ++ preorder intoFunctions body
    | .forLoop init condition update body =>
      preorderOption intoFunctions init ++ condition.preorder ++
        Expr.preorderAll update.toList ++ preorder intoFunctions body
    | .ret value => Expr.preorderAll value.toList
    | .expression e => e.preorder

def preorderAll (intoFunctions : Bool) : List Stmt → List Node
  | [] => []
  | s :: rest => preorder intoFunctions s ++ preorderAll intoFunctions rest

def preorderOption (intoFunctions : Bool) : Option Stmt → List Node
  | none => []
  | some s => preorder intoFunctions s

end

end Stmt

namespace Node

/-- The nodes of a tree, each before those below it. -/
def preorder (intoFunctions : Bool) : Node → List Node
  | .expr e => e.preorder
  | .stmt s => s.preorder intoFunctions
  | .param p => [.param p]

/-- The nodes of a list of trees, tree by tree. -/
def preorderAll (intoFunctions : Bool) (nodes : List Node) : List Node :=
  nodes.flatMap (preorder intoFunctions)

variable {intoFunctions : Bool}

/-! ### Lists of one kind -/

theorem preorderAll_nil : preorderAll intoFunctions [] = [] := rfl

theorem preorderAll_append (xs ys : List Node) :
    preorderAll intoFunctions (xs ++ ys) =
      preorderAll intoFunctions xs ++ preorderAll intoFunctions ys :=
  List.flatMap_append

theorem preorderAll_cons (node : Node) (nodes : List Node) :
    preorderAll intoFunctions (node :: nodes) =
      node.preorder intoFunctions ++ preorderAll intoFunctions nodes :=
  List.flatMap_cons

theorem preorderAll_exprs (es : List Expr) :
    preorderAll intoFunctions (es.map .expr) = Expr.preorderAll es := by
  induction es with
  | nil => rfl
  | cons e es ih => rw [List.map_cons, preorderAll_cons, ih, Expr.preorderAll, preorder]

theorem preorderAll_stmts (ss : List Stmt) :
    preorderAll intoFunctions (ss.map .stmt) = Stmt.preorderAll intoFunctions ss := by
  induction ss with
  | nil => rfl
  | cons s ss ih => rw [List.map_cons, preorderAll_cons, ih, Stmt.preorderAll, preorder]

theorem preorderAll_option (s : Option Stmt) :
    preorderAll intoFunctions (s.toList.map .stmt) = Stmt.preorderOption intoFunctions s := by
  cases s with
  | none => rfl
  | some s => exact List.append_nil _

theorem preorderAll_params (ps : List Parameter) :
    preorderAll intoFunctions (ps.map .param) = ps.map .param := by
  induction ps with
  | nil => rfl
  | cons p ps ih => rw [List.map_cons, preorderAll_cons, ih]; rfl

/-! ### One round -/

theorem preorder_expr (e : Expr) :
    e.preorder = .expr e :: preorderAll intoFunctions (e.children.map .expr) := by
  rw [preorderAll_exprs, Expr.preorder.eq_def]
  cases e <;> simp [Expr.children, Expr.preorderAll]

/-- A node comes first, then what is visited below it, branch by branch. -/
theorem preorder_eq (node : Node) :
    node.preorder intoFunctions =
      node :: preorderAll intoFunctions (node.visited intoFunctions) := by
  cases node with
  | expr e => exact preorder_expr e
  | param p => rfl
  | stmt s =>
    rw [preorder, Stmt.preorder.eq_def]
    cases s with
    | function returnType name params body =>
      have hbody : preorderAll intoFunctions [.stmt (.block body)] =
          .stmt (.block body) :: Stmt.preorderAll intoFunctions body := by
        rw [preorderAll_cons, preorder, Stmt.preorder]
        exact List.append_nil _
      cases intoFunctions with
      | false => rfl
      | true =>
        simp only [visited, children, preorderAll_append, preorderAll_params, hbody, if_true]
    | declaration | prototype | block | input | print | ret =>
      simp only [visited, children, preorderAll_exprs, preorderAll_stmts, preorderAll_params]
    | ifElse | whileLoop | doLoop | forLoop | expression =>
      simp only [visited, children, preorderAll_append, preorderAll_cons, preorderAll_nil,
        preorderAll_exprs, preorderAll_option, preorder, List.append_assoc, List.append_nil]
    | header | usingSpace | breakLoop | continueLoop => rfl

/-- The traversal lists the nodes as recursion does. -/
theorem walkFrom_eq_preorderAll (nodes : List Node) :
    walkFrom intoFunctions nodes = preorderAll intoFunctions nodes := by
  fun_induction walkFrom intoFunctions nodes with
  | case1 => rfl
  | case2 node stack ih =>
    rw [ih, preorderAll_append, preorderAll_cons, preorder_eq, List.cons_append]

/-- Only no trees have no nodes. -/
theorem preorderAll_eq_nil_iff {nodes : List Node} :
    preorderAll intoFunctions nodes = [] ↔ nodes = [] := by
  constructor
  · intro h
    cases nodes with
    | nil => rfl
    | cons node nodes =>
      rw [preorderAll_cons, preorder_eq] at h
      cases h
  · rintro rfl
    rfl

end Node

/-! ## Rounds -/

/-- A traversal under way: the nodes listed so far, and the stack of those still to visit, the next
one last. -/
structure Traversal where
  listed : List Node
  stack : List Node

namespace Traversal

open Node (preorderAll preorderAll_cons preorderAll_append preorder_eq preorderAll_eq_nil_iff)

/-- Nothing is listed yet, and the first tree is the next to visit. -/
def start (nodes : List Node) : Traversal := ⟨[], nodes.reverse⟩

/-- One round: the last node is taken off the stack and listed, and the nodes below it are put
there, the first of them last. With an empty stack there are no more rounds. -/
def round? (intoFunctions : Bool) (t : Traversal) : Option Traversal :=
  t.stack.getLast?.map fun node =>
    ⟨t.listed ++ [node], t.stack.dropLast ++ (node.visited intoFunctions).reverse⟩

/-- The traversal after a number of rounds, if there are so many. -/
def after? (intoFunctions : Bool) : Nat → Traversal → Option Traversal
  | 0, t => some t
  | n + 1, t => (t.round? intoFunctions).bind (after? intoFunctions n)

variable {intoFunctions : Bool} {t t' : Traversal}

/-- What recursion lists for the trees on the stack. -/
def ahead (intoFunctions : Bool) (t : Traversal) : List Node :=
  preorderAll intoFunctions t.stack.reverse

/-- A round lists the first of the nodes ahead and leaves the others ahead. -/
theorem ahead_round (h : t.round? intoFunctions = some t') :
    ∃ node, t.ahead intoFunctions = node :: t'.ahead intoFunctions ∧
      t'.listed = t.listed ++ [node] := by
  obtain ⟨node, hlast, rfl⟩ := Option.map_eq_some_iff.1 h
  refine ⟨node, ?_, rfl⟩
  obtain ⟨before, hstack⟩ := List.getLast?_eq_some_iff.1 hlast
  have hrest : t.stack.dropLast = before := by rw [hstack, List.dropLast_concat]
  have hbelow : preorderAll intoFunctions (before ++ (node.visited intoFunctions).reverse).reverse =
      preorderAll intoFunctions (node.visited intoFunctions) ++
        preorderAll intoFunctions before.reverse := by
    rw [List.reverse_append, List.reverse_reverse, preorderAll_append]
  rw [ahead, ahead, hrest, hbelow, hstack, List.reverse_concat, preorderAll_cons, preorder_eq,
    List.cons_append]

/-- As long as something is ahead, there is another round. -/
theorem exists_round (h : t.ahead intoFunctions ≠ []) :
    ∃ t', t.round? intoFunctions = some t' := by
  have hstack : t.stack ≠ [] := by
    intro hnil
    exact h (preorderAll_eq_nil_iff.2 (List.reverse_eq_nil_iff.2 hnil))
  exact ⟨_, congrArg (Option.map _) (List.getLast?_eq_some_getLast hstack)⟩

/-- After as many rounds as nodes are ahead, all of them are listed and the stack is empty. -/
theorem after?_ahead (t : Traversal) :
    t.after? intoFunctions (t.ahead intoFunctions).length =
      some ⟨t.listed ++ t.ahead intoFunctions, []⟩ := by
  induction hn : (t.ahead intoFunctions).length generalizing t with
  | zero =>
    have hahead : t.ahead intoFunctions = [] := List.length_eq_zero_iff.1 hn
    have hstack : t.stack = [] := List.reverse_eq_nil_iff.1 (preorderAll_eq_nil_iff.1 hahead)
    rw [after?, hahead, List.append_nil, ← hstack]
  | succ n ih =>
    obtain ⟨t', hround⟩ := exists_round (List.ne_nil_of_length_eq_add_one hn)
    obtain ⟨node, hahead, hlisted⟩ := ahead_round hround
    have hn' : (t'.ahead intoFunctions).length = n := by
      rw [hahead] at hn
      exact Nat.succ.inj hn
    rw [after?, hround, Option.bind_some, ih t' hn', hlisted, hahead, List.append_assoc]
    rfl

end Traversal

/-! ## Places -/

namespace Node

variable {intoFunctions : Bool}

/-- The node at a place in a list of trees. The first branch is the number of a tree, each further
one that of a node which is visited directly below. -/
def nodeAt? (intoFunctions : Bool) : List Node → List Nat → Option Node
  | _, [] => none
  | nodes, [branch] => nodes[branch]?
  | nodes, branch :: next :: further =>
    nodes[branch]?.bind fun node =>
      nodeAt? intoFunctions (node.visited intoFunctions) (next :: further)

/-- The places in a list of trees with the nodes there, where the first tree has this number. -/
def placed (intoFunctions : Bool) : Nat → List Node → List (List Nat × Node)
  | _, [] => []
  | first, node :: nodes =>
    ([first], node) ::
      ((placed intoFunctions 0 (node.visited intoFunctions)).map fun (place, below) =>
        (first :: place, below)) ++
      placed intoFunctions (first + 1) nodes
termination_by _ nodes => countAll nodes
decreasing_by
  · have := countAll_visited_lt intoFunctions node
    simp only [countAll]
    omega
  · have := count_eq node
    simp only [countAll]
    omega

theorem nodeAt?_nil_left (place : List Nat) : nodeAt? intoFunctions [] place = none := by
  unfold nodeAt?
  split <;> rfl

/-- In the first tree. -/
theorem nodeAt?_zero (node : Node) (nodes : List Node) (next : Nat) (further : List Nat) :
    nodeAt? intoFunctions (node :: nodes) (0 :: next :: further) =
      nodeAt? intoFunctions (node.visited intoFunctions) (next :: further) := by
  rw [nodeAt?]
  rfl

/-- In a later tree. -/
theorem nodeAt?_succ (node : Node) (nodes : List Node) (branch : Nat) (further : List Nat) :
    nodeAt? intoFunctions (node :: nodes) ((branch + 1) :: further) =
      nodeAt? intoFunctions nodes (branch :: further) := by
  cases further <;> rfl

/-- The places that are listed are those at which there is a node. -/
theorem mem_placed_iff {first : Nat} {nodes : List Node} {place : List Nat} {node : Node} :
    (place, node) ∈ placed intoFunctions first nodes ↔
      ∃ branch further, place = (first + branch) :: further ∧
        nodeAt? intoFunctions nodes (branch :: further) = some node := by
  induction first, nodes using placed.induct intoFunctions generalizing place with
  | case1 first =>
    constructor
    · intro h
      simp [placed] at h
    · rintro ⟨branch, further, -, h⟩
      rw [nodeAt?_nil_left] at h
      cases h
  | case2 first top nodes ihBelow ihNodes =>
    rw [placed, List.mem_append, List.mem_cons, List.mem_map, ihNodes]
    -- the first tree itself, a node below it, or a node of a later tree
    constructor
    · rintro ((htop | ⟨⟨below, n⟩, hbelow, hplace⟩) | ⟨branch, further, rfl, hnode⟩)
      · cases htop
        exact ⟨0, [], rfl, rfl⟩
      · cases hplace
        obtain ⟨next, further, rfl, hnode⟩ := ihBelow.1 hbelow
        rw [Nat.zero_add]
        exact ⟨0, next :: further, rfl, (nodeAt?_zero top nodes next further).trans hnode⟩
      · refine ⟨branch + 1, further, ?_, (nodeAt?_succ top nodes branch further).trans hnode⟩
        rw [Nat.add_right_comm, Nat.add_assoc]
    · rintro ⟨branch, further, rfl, hnode⟩
      cases branch with
      | zero =>
        cases further with
        | nil =>
          cases hnode
          exact .inl (.inl rfl)
        | cons next further =>
          rw [nodeAt?_zero] at hnode
          have hbelow := ihBelow.2 ⟨next, further, rfl, hnode⟩
          rw [Nat.zero_add] at hbelow
          exact .inl (.inr ⟨_, hbelow, rfl⟩)
      | succ branch =>
        rw [nodeAt?_succ] at hnode
        exact .inr ⟨branch, further, by rw [Nat.add_right_comm, Nat.add_assoc], hnode⟩

/-- The nodes are listed as recursion lists them. -/
theorem map_snd_placed (first : Nat) (nodes : List Node) :
    (placed intoFunctions first nodes).map Prod.snd = preorderAll intoFunctions nodes := by
  induction first, nodes using placed.induct intoFunctions with
  | case1 first => simp only [placed, List.map_nil, preorderAll_nil]
  | case2 first top nodes ihBelow ihNodes =>
    rw [placed, List.map_append, List.map_cons, List.map_map, ihNodes, preorderAll_cons,
      preorder_eq, ← ihBelow]
    rfl

/-- The places are listed in the order of their branches. -/
theorem sorted_placed (first : Nat) (nodes : List Node) :
    ((placed intoFunctions first nodes).map Prod.fst).Pairwise (· < ·) := by
  induction first, nodes using placed.induct intoFunctions with
  | case1 first => simp only [placed, List.map_nil, List.Pairwise.nil]
  | case2 first top nodes ihBelow ihNodes =>
    -- all places in the other trees start with a later branch
    have hlater : ∀ place ∈ (placed intoFunctions (first + 1) nodes).map Prod.fst,
        ∀ below : List Nat, first :: below < place := by
      intro place hplace below
      obtain ⟨⟨_, node⟩, hmem, rfl⟩ := List.mem_map.1 hplace
      obtain ⟨branch, further, rfl, -⟩ := mem_placed_iff.1 hmem
      exact List.cons_lt_cons_iff.2 (.inl (by omega))
    rw [placed, List.map_append, List.map_cons, List.pairwise_append, List.pairwise_cons]
    refine ⟨⟨?_, ?_⟩, ihNodes, ?_⟩
    · intro place hplace
      rw [List.map_map] at hplace
      obtain ⟨⟨below, node⟩, hmem, rfl⟩ := List.mem_map.1 hplace
      obtain ⟨branch, further, rfl, -⟩ := mem_placed_iff.1 hmem
      exact List.cons_lt_cons_iff.2 (.inr ⟨rfl, List.nil_lt_cons _ _⟩)
    · rw [List.map_map, List.pairwise_map]
      refine (List.pairwise_map.1 ihBelow).imp fun h => ?_
      exact List.cons_lt_cons_iff.2 (.inr ⟨rfl, h⟩)
    · intro place hplace other hother
      rcases List.mem_cons.1 hplace with rfl | hplace
      · exact hlater other hother []
      · rw [List.map_map] at hplace
        obtain ⟨⟨below, node⟩, -, rfl⟩ := List.mem_map.1 hplace
        exact hlater other hother below

/-- From the number 0 on, the branches are those that lead to a node. -/
theorem mem_placed_zero_iff {nodes : List Node} {place : List Nat} {node : Node} :
    (place, node) ∈ placed intoFunctions 0 nodes ↔
      nodeAt? intoFunctions nodes place = some node := by
  rw [mem_placed_iff]
  constructor
  · rintro ⟨branch, further, rfl, h⟩
    rw [Nat.zero_add]
    exact h
  · intro h
    cases place with
    | nil => cases h
    | cons branch further => exact ⟨branch, further, by rw [Nat.zero_add], h⟩

end Node

/-- The traversal with a stack is a preorder traversal. It lists what recursion down the trees
lists, in one round for each node, after which its stack is empty; and these are the nodes at all
the places in the trees, each place once, in the order of their branches. -/
theorem walk_preorder (intoFunctions : Bool) :
    (∀ statements, walk intoFunctions statements = Stmt.preorderAll intoFunctions statements) ∧
    ∀ nodes : List Node,
      Node.walkFrom intoFunctions nodes = Node.preorderAll intoFunctions nodes ∧
      (Traversal.start nodes).after? intoFunctions (Node.walkFrom intoFunctions nodes).length =
        some ⟨Node.walkFrom intoFunctions nodes, []⟩ ∧
      ∃ placed : List (List Nat × Node),
        placed.map Prod.snd = Node.walkFrom intoFunctions nodes ∧
        (placed.map Prod.fst).Pairwise (· < ·) ∧
        ∀ place node, (place, node) ∈ placed ↔
          Node.nodeAt? intoFunctions nodes place = some node := by
  refine ⟨fun statements => ?_, fun nodes => ?_⟩
  · rw [walk, Node.walkFrom_eq_preorderAll, Node.preorderAll_stmts]
  · have hwalk : Node.walkFrom intoFunctions nodes = Node.preorderAll intoFunctions nodes :=
      Node.walkFrom_eq_preorderAll nodes
    have hahead :
        (Traversal.start nodes).ahead intoFunctions = Node.walkFrom intoFunctions nodes := by
      rw [Traversal.ahead, Traversal.start, List.reverse_reverse, hwalk]
    refine ⟨hwalk, ?_, Node.placed intoFunctions 0 nodes, ?_, Node.sorted_placed 0 nodes, ?_⟩
    · rw [← hahead]
      exact (Traversal.start nodes).after?_ahead
    · rw [Node.map_snd_placed, hwalk]
    · intro place node
      exact Node.mem_placed_zero_iff

end ConsoleCpp
