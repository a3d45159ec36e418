/-
What operators and stores do to the state. An operation of arithmetic faults and changes nothing,
gives a value that is no list and changes nothing, or makes a new list. The operation of a compound
assignment statement differs from it in one way only: it may change a list in place. What has been
written to a variable, an element or a field is read back.
-/
import ConsoleCpp.Machine.Eval
import ConsoleCpp.Proofs.Generate.Cases
import ConsoleCpp.Proofs.Machine.Runs

namespace ConsoleCpp.Machine

open Generate (bind_ok)

/-! ## Arithmetic -/

/-- How an operation on values ends from a state: in a fault, with a value that is no list, or with
a new list. -/
inductive Combined (s : State) : EStateM.Result Stop State Value → Prop where
  | faulted (f : Fault) : Combined s (.error (.fault f) s)
  | value (v : Value) (h : ∀ ref, v ≠ .list ref) : Combined s (.ok v s)
  | newList (items : Array Value) :
    Combined s (.ok (.list s.lists.size) { s with lists := s.lists.push items })

/-- Such an operation, from every state. -/
def Combines (x : Run Value) : Prop := ∀ s, Combined s (x s)

theorem combines_fault (f : Fault) : Combines (fault f) := fun _ => .faulted f

theorem combines_orFault {r : Except Fault Value} (h : ∀ v ref, r = .ok v → v ≠ .list ref) :
    Combines (orFault r) := by
  cases r with
  | ok v => exact fun _ => .value v fun ref => h v ref rfl
  | error f => exact combines_fault f

/-- An operation on numbers gives a number or a fault, never a list. -/
theorem onFloats_ne_list {f : Float → Float → Float} {x y : Num} (v : Value) (ref : Nat)
    (h : onFloats f x y = .ok v) : v ≠ .list ref := by
  unfold onFloats at h
  obtain ⟨a, -, h⟩ := bind_ok h
  obtain ⟨b, -, h⟩ := bind_ok h
  cases h
  exact nofun

theorem plainArith_ne_list {onInt : Int → Int → Int} {onFloat : Float → Float → Float} {x y : Num}
    (v : Value) (ref : Nat) (h : plainArith onInt onFloat x y = .ok v) : v ≠ .list ref := by
  unfold plainArith at h
  split at h
  · cases h
    exact nofun
  · exact onFloats_ne_list v ref h

theorem numQuotient_ne_list {x y : Num} (v : Value) (ref : Nat) (h : numQuotient x y = .ok v) :
    v ≠ .list ref := by
  unfold numQuotient at h
  split at h
  · obtain ⟨q, -, h⟩ := bind_ok h
    cases h
    exact nofun
  · obtain ⟨a, -, h⟩ := bind_ok h
    obtain ⟨b, -, h⟩ := bind_ok h
    split at h
    · cases h
    · cases h
      exact nofun

theorem divide_ne_list {a b : Value} (v : Value) (ref : Nat) (h : divide a b = .ok v) :
    v ≠ .list ref := by
  unfold divide at h
  split at h
  · exact numQuotient_ne_list v ref h
  · cases h

theorem remainder_ne_list {a b : Value} (v : Value) (ref : Nat) (h : remainder a b = .ok v) :
    v ≠ .list ref := by
  unfold remainder at h
  split at h
  · obtain ⟨r, -, h⟩ := bind_ok h
    cases h
    exact nofun
  · obtain ⟨x, -, h⟩ := bind_ok h
    obtain ⟨y, -, h⟩ := bind_ok h
    unfold floatRemainder at h
    split at h
    · cases h
      exact nofun
    · cases h

/-- A list that is repeated is a new list, behind those that were there. -/
theorem combines_repeatSequence {a : Value} (ha : isSequence a = true) (n : Int) :
    Combines (repeatSequence a n) := by
  intro s
  unfold isSequence at ha
  split at ha
  · rename_i t
    show Combined s ((orFault (repetitions t.length n) >>= _) s)
    cases repetitions t.length n with
    | ok count => exact .value _ nofun
    | error f => exact .faulted f
  · rename_i ref
    show Combined s ((orFault (repetitions (s.list ref).size n) >>= _) s)
    cases repetitions (s.list ref).size n with
    | ok count => exact .newList _
    | error f => exact .faulted f
  · cases ha

theorem combines_sum (op : String) (a b : Value) : Combines (sum op a b) := by
  unfold sum
  split
  · exact fun _ => .value _ nofun
  · exact fun _ => .newList _
  · exact combines_fault _
  · exact combines_fault _
  · split
    · exact combines_orFault plainArith_ne_list
    · exact combines_fault _

theorem combines_difference (op : String) (a b : Value) : Combines (difference op a b) := by
  unfold difference
  split
  · exact combines_orFault plainArith_ne_list
  · exact combines_fault _

theorem combines_product (op : String) (a b : Value) : Combines (product op a b) := by
  unfold product
  split
  · exact combines_orFault plainArith_ne_list
  · split
    · split
      · exact combines_repeatSequence ‹_› _
      · exact combines_fault _
    · split
      · split
        · exact combines_repeatSequence ‹_› _
        · exact combines_fault _
      · exact combines_fault _

/-- So an operator either makes one new list or leaves the state as it is. -/
theorem combines_arith (op : ArithOp) (a b : Value) : Combines (arith op a b) := by
  cases op with
  | add => exact combines_sum "+" a b
  | sub => exact combines_difference "-" a b
  | mul => exact combines_product "*" a b
  | div => exact combines_orFault divide_ne_list
  | mod => exact combines_orFault remainder_ne_list

/-- No operator touches an object. -/
theorem arith_objects {op : ArithOp} {a b r : Value} {s t : State} (h : arith op a b s = .ok r t) :
    t.objects = s.objects := by
  have hc := combines_arith op a b s
  rw [h] at hc
  cases hc <;> rfl

/-- An operation on a list that finishes gives a list. -/
theorem arith_list_ok {op : ArithOp} {ref : Nat} {v r : Value} {s t : State}
    (h : arith op (.list ref) v s = .ok r t) : ∃ ref', r = .list ref' := by
  cases op with
  | add =>
    cases v with
    | list _ =>
      cases h
      exact ⟨_, rfl⟩
    | _ => cases h
  | mul =>
    simp only [arith, product, Value.num?, isSequence] at h
    cases hn : v.int? with
    | none => rw [hn] at h; cases h
    | some n =>
      rw [hn] at h
      change (orFault (repetitions (s.list ref).size n) >>= _) s = .ok r t at h
      obtain ⟨count, u, -, h⟩ := run_bind_ok h
      cases h
      exact ⟨_, rfl⟩
  | sub | div | mod => cases h

/-- After a step, the step back finishes and changes nothing. -/
theorem arith_undo {op : StepOp} {old new : Value} {s t : State}
    (h : arith op.arith old (.int 1) s = .ok new t) (u : State) : ∃ v,
      (match op with
        | .increment => arith .sub new (.int 1)
        | .decrement => arith .add new (.int 1)) u = .ok v u := by
  -- only a number has been stepped, and the step has made a number of it
  cases op with
  | increment =>
    cases old with
    | int _ | bool _ | float _ =>
      cases h
      exact ⟨_, rfl⟩
    | _ => cases h
  | decrement =>
    cases old with
    | int _ | bool _ | float _ =>
      cases h
      exact ⟨_, rfl⟩
    | _ => cases h

/-! ## Arithmetic in place -/

/-- Two operations that are the same but for the fault that they end in. -/
inductive Matches : Run Value → Run Value → Prop where
  | same (x : Run Value) : Matches x x
  | faults (f g : Fault) : Matches (fault f) (fault g)

theorem Matches.ends_bind {β : Type} {x y : Run Value} (h : Matches x y) (next : Value → Run β)
    (s : State) : ends (x >>= next) s = ends (y >>= next) s := by
  cases h <;> rfl

theorem matches_sum (op op' : String) (a b : Value) : Matches (sum op a b) (sum op' a b) := by
  unfold sum
  split
  · exact .same _
  · exact .same _
  · exact .same _
  · exact .same _
  · split
    · exact .same _
    · exact .faults _ _

theorem matches_difference (op op' : String) (a b : Value) :
    Matches (difference op a b) (difference op' a b) := by
  unfold difference
  split
  · exact .same _
  · exact .faults _ _

theorem matches_product (op op' : String) (a b : Value) :
    Matches (product op a b) (product op' a b) := by
  unfold product
  split
  · exact .same _
  · split
    · exact .same _
    · split
      · exact .same _
      · exact .faults _ _

theorem matches_inPlace (op : ArithOp) (old v : Value) (h : ∀ ref, old ≠ .list ref) :
    Matches (inPlace op old v) (arith op old v) := by
  cases op with
  | add =>
    have hi : inPlace .add old v = sum "+=" old v := by
      rw [inPlace]
      exact h
    rw [hi]
    exact matches_sum "+=" "+" old v
  | mul =>
    have hi : inPlace .mul old v = product "*=" old v := by
      rw [inPlace]
      exact h
    rw [hi]
    exact matches_product "*=" "*" old v
  | sub => exact matches_difference "-=" "-" old v
  | div | mod => exact .same _

/-- An operation in place on a list changes the list, or it faults as the plain one does. -/
theorem inPlace_list (op : ArithOp) (ref : Nat) (v : Value) (s : State) :
    (∃ f, inPlace op (.list ref) v s = .ok (.list ref) { s with lists := s.lists.modify ref f }) ∨
      ∃ f g, inPlace op (.list ref) v s = .error (.fault f) s ∧
        arith op (.list ref) v s = .error (.fault g) s := by
  cases op with
  | add =>
    cases v with
    | list _ | text _ => exact .inl ⟨_, rfl⟩
    | _ => exact .inr ⟨_, _, rfl, rfl⟩
  | mul =>
    -- either way the number of repetitions is checked first, and the list is looked at after that
    cases hn : v.int? with
    | none =>
      refine .inr ⟨.notRepeatable v.typeName, .notRepeatable v.typeName, ?_, ?_⟩
      · simp only [inPlace, hn]
        rfl
      · simp only [arith, product, Value.num?, isSequence, hn]
        rfl
    | some n =>
      have hi : inPlace .mul (.list ref) v s = (orFault (repetitions (s.list ref).size n) >>=
          fun count => changeList ref (repeated · count) >>= fun _ => pure (.list ref)) s := by
        simp only [inPlace, hn]
        rfl
      have ha : arith .mul (.list ref) v s = (orFault (repetitions (s.list ref).size n) >>=
          fun count => newList (repeated (s.list ref) count)) s := by
        simp only [arith, product, Value.num?, isSequence, hn]
        rfl
      rw [hi, ha]
      cases repetitions (s.list ref).size n with
      | ok count => exact .inl ⟨_, rfl⟩
      | error f => exact .inr ⟨f, f, rfl, rfl⟩
  | sub | div | mod => exact .inr ⟨_, _, rfl, rfl⟩

theorem inPlace_list_ok {op : ArithOp} {ref : Nat} {v r : Value} {s t : State}
    (h : inPlace op (.list ref) v s = .ok r t) :
    r = .list ref ∧ t.lists.size = s.lists.size ∧ t.objects = s.objects := by
  rcases inPlace_list op ref v s with ⟨f, hf⟩ | ⟨f, g, hf, -⟩
  · rw [hf] at h
    cases h
    exact ⟨rfl, Array.size_modify, rfl⟩
  · rw [hf] at h
    cases h

/-- Unless it changes a list, an operation in place ends as the plain one. -/
theorem ends_bind_inPlace {β : Type} {op : ArithOp} {old v : Value} {s : State}
    (h : ∀ ref t, old = .list ref → inPlace op old v s ≠ .ok old t) (next : Value → Run β) :
    ends (inPlace op old v >>= next) s = ends (arith op old v >>= next) s := by
  cases old with
  | list ref =>
    rcases inPlace_list op ref v s with ⟨f, hf⟩ | ⟨f, g, hf, hg⟩
    · exact absurd hf (h ref _ rfl)
    · rw [ends_bind_of_error hf, ends_bind_of_error hg, ends_of_fault hf, ends_of_fault hg]
  | _ =>
    refine (matches_inPlace op _ v ?_).ends_bind next s
    exact nofun

/-! ## Variables -/

theorem getD_modify {α : Type} {xs : Array α} {i : Nat} (h : i < xs.size) (f : α → α) (d : α) :
    (xs.modify i f).getD i d = f (xs.getD i d) := by
  simp [Array.getD_eq_getD_getElem?, h, Array.getElem_modify_self]

theorem lookup_isSome (id : String) : ∀ frame : Frame,
    (frame.lookup id).isSome = frame.any fun entry => entry.1 == id
  | [] => rfl
  | (name, old) :: rest => by
    rw [List.any_cons, List.lookup_cons]
    by_cases hn : name = id
    · subst hn
      simp
    · have hb : (id == name) = false := by
        rw [beq_eq_false_iff_ne]
        exact fun h => hn h.symm
      rw [hb, beq_eq_false_iff_ne.2 hn, Bool.false_or]
      exact lookup_isSome id rest

theorem any_withVariable (id : String) (v : Value) (other : String) : ∀ frame : Frame,
    ((withVariable id v frame).any fun entry => entry.1 == other) =
      frame.any fun entry => entry.1 == other
  | [] => rfl
  | (name, old) :: rest => by
    unfold withVariable
    split
    · rfl
    · rw [List.any_cons, List.any_cons, any_withVariable id v other rest]

/-- Setting a variable of a frame sets this one and no other. -/
theorem lookup_withVariable {id : String} (v : Value) : ∀ {frame : Frame},
    (frame.any fun entry => entry.1 == id) = true →
      (withVariable id v frame).lookup id = some (some v)
  | [], h => by cases h
  | (name, old) :: rest, h => by
    unfold withVariable
    by_cases hn : name = id
    · subst hn
      simp
    · have hb : (id == name) = false := by
        rw [beq_eq_false_iff_ne]
        exact fun h => hn h.symm
      rw [List.any_cons, beq_eq_false_iff_ne.2 hn, Bool.false_or] at h
      rw [beq_eq_false_iff_ne.2 hn, if_neg Bool.false_ne_true, List.lookup_cons, hb]
      exact lookup_withVariable v h

/-- The value of a variable is in the innermost frame that has the variable; where none has it, it is
a function that needs no definition. -/
theorem freeVariable_ok_iff {s : State} {id : String} {v : Value} : ∀ {env : List Nat},
    freeVariable s id env = .ok v ↔
      (∃ frame, frameOf? s id env = some frame ∧
        (s.frames.getD frame []).lookup id = some (some v)) ∨
      (frameOf? s id env = none ∧ ∃ b, Builtin.ofName? id = some b ∧ v = .builtin b)
  | [] => by
    unfold freeVariable frameOf?
    cases Builtin.ofName? id with
    | none => simp
    | some b => simp [eq_comm]
  | frame :: rest => by
    have hany := lookup_isSome id (s.frames.getD frame [])
    unfold freeVariable frameOf?
    cases hl : (s.frames.getD frame []).lookup id with
    | none =>
      rw [hl] at hany
      rw [List.find?_cons_of_neg (by rw [← hany]; exact Bool.false_ne_true)]
      exact freeVariable_ok_iff
    | some held =>
      rw [hl] at hany
      rw [List.find?_cons_of_pos (by rw [← hany]; rfl)]
      simp only [Option.some.injEq, exists_eq_left', hl, reduceCtorEq, false_and, or_false]
      cases held with
      | none => simp
      | some w => simp

/-- A variable has a value if the frame that owns it gives it one. -/
theorem lookup_ok_iff {s : State} {id : String} {v : Value} {env : List Nat} :
    lookup s id env = .ok v ↔ freeVariable s id env = .ok v := by
  cases env with
  | nil => rfl
  | cons frame rest =>
    -- which fault a variable without a value is does not matter here
    simp only [lookup, freeVariable]
    cases (s.frames.getD frame []).lookup id with
    | none => rfl
    | some held =>
      cases held with
      | none => simp
      | some w => rfl

theorem assign_of_frame {env : List Nat} {id : String} {s : State} {frame : Nat}
    (h : frameOf? s id env = some frame) (v : Value) :
    assign env id v s = .ok () { s with frames := s.frames.modify frame (withVariable id v) } := by
  refine (bind_of_ok (show (get : Run State) s = .ok s s from rfl)).trans ?_
  simp only [h]
  rfl

theorem assign_of_none {env : List Nat} {id : String} {s : State} (h : frameOf? s id env = none)
    (v : Value) : assign env id v s = .error (.fault (.undefined id)) s := by
  refine (bind_of_ok (show (get : Run State) s = .ok s s from rfl)).trans ?_
  simp only [h]
  rfl

/-- An assignment that succeeds has found the frame that owns the variable. -/
theorem assign_ok {env : List Nat} {id : String} {v : Value} {s t : State}
    (h : assign env id v s = .ok () t) : ∃ frame, frameOf? s id env = some frame ∧
      t = { s with frames := s.frames.modify frame (withVariable id v) } := by
  cases hf : frameOf? s id env with
  | none =>
    rw [assign_of_none hf] at h
    cases h
  | some frame =>
    rw [assign_of_frame hf] at h
    cases h
    exact ⟨frame, rfl, rfl⟩

theorem frame_lt {s : State} {id : String} {frame : Nat}
    (h : ((s.frames.getD frame []).any fun entry => entry.1 == id) = true) :
    frame < s.frames.size := by
  by_cases hf : frame < s.frames.size
  · exact hf
  · simp [Array.getD, hf] at h

/-- A variable that has been given a value has it. -/
theorem lookup_assign {env : List Nat} {id : String} {v : Value} {s t : State}
    (h : assign env id v s = .ok () t) : lookup t id env = .ok v := by
  obtain ⟨frame, hf, rfl⟩ := assign_ok h
  have hany : ((s.frames.getD frame []).any fun entry => entry.1 == id) = true := by
    have := List.find?_some hf
    exact this
  have hframe := getD_modify (frame_lt hany) (withVariable id v) []
  -- each frame has the variables that it had, so the same frame is found
  have hsame : frameOf? { s with frames := s.frames.modify frame (withVariable id v) } id env =
      some frame := by
    rw [← hf]
    unfold frameOf?
    congr 1
    funext other
    by_cases ho : frame = other
    · subst ho
      rw [hframe, any_withVariable]
    · simp [Array.getD_eq_getD_getElem?, Array.getElem?_modify, ho]
  rw [lookup_ok_iff, freeVariable_ok_iff]
  exact .inl ⟨frame, hsame, by rw [hframe]; exact lookup_withVariable v hany⟩

/-! ## Reading what was written -/

/-- A store to an element changes one list at one position. -/
theorem setItem_ok {owner key v : Value} {s t : State} (h : setItem owner key v s = .ok () t) :
    ∃ ref i, itemCell s owner key = .ok (ref, i) ∧
      t = { s with lists := s.lists.modify ref (·.setIfInBounds i v) } := by
  change (orFault (itemCell s owner key) >>= _) s = .ok () t at h
  cases hc : itemCell s owner key with
  | ok cell =>
    rw [hc] at h
    cases h
    exact ⟨cell.1, cell.2, rfl, rfl⟩
  | error f => rw [hc] at h; cases h

theorem position_lt {size i : Nat} {n : Int} (h : position? size n = some i) : i < size := by
  unfold position? at h
  simp only [Bool.and_eq_true, decide_eq_true_eq] at h
  by_cases hn : n < 0
  · rw [if_pos hn] at h
    split at h
    · cases h
      omega
    · cases h
  · rw [if_neg hn] at h
    split at h
    · cases h
      omega
    · cases h

theorem list_size_pos {s : State} {ref i : Nat} (h : i < (s.list ref).size) : ref < s.lists.size := by
  unfold State.list at h
  by_cases hr : ref < s.lists.size
  · exact hr
  · simp [Array.getD, hr] at h

/-- What is stored to an element is read back by the same key. -/
theorem getItem_setItem {owner key v : Value} {s t : State} (h : setItem owner key v s = .ok () t) :
    getItem t owner key = .ok v := by
  obtain ⟨ref, i, hc, rfl⟩ := setItem_ok h
  unfold itemCell at hc
  split at hc
  · split at hc
    · cases hc
    · rename_i n hn
      split at hc
      · cases hc
      · rename_i hh
        split at hc
        · rename_i hp
          cases hc
          have hi := position_lt hp
          have hl : ({ s with lists := s.lists.modify ref (·.setIfInBounds i v) } : State).list ref =
              (s.list ref).setIfInBounds i v := getD_modify (list_size_pos hi) _ _
          unfold getItem
          simp [hn, hh, hl, hp, hi]
        · cases hc
  · cases hc
  · cases hc

/-- What has elements is a list, or it is a text and its elements are texts. -/
theorem getItem_ok {owner key v : Value} {s : State} (h : getItem s owner key = .ok v) :
    (∃ l, owner = .list l) ∨ ∃ t, v = .text t := by
  unfold getItem at h
  split at h
  · exact .inl ⟨_, rfl⟩
  · split at h
    · cases h
    · split at h
      · cases h
      · split at h
        · cases h
          exact .inr ⟨_, rfl⟩
        · cases h
  · cases h
  · cases h

theorem getItem_of_itemCell_error {l : Nat} {key : Value} {f : Fault} {s : State}
    (h : itemCell s (.list l) key = .error f) : ∃ g, getItem s (.list l) key = .error g := by
  simp only [itemCell] at h
  simp only [getItem]
  cases hk : key.int? with
  | none => exact ⟨_, rfl⟩
  | some n =>
    simp only [hk] at h
    by_cases hh : isHuge n
    · exact ⟨.hugeIndex, if_pos hh⟩
    · rw [if_neg hh] at h
      cases hp : position? (s.list l).size n with
      | none => exact ⟨.listRange, by simp only [if_neg hh, hp, Option.bind_none]⟩
      | some i =>
        rw [hp] at h
        cases h

theorem setAttr_ok {owner v : Value} {field : String} {s t : State}
    (h : setAttr owner field v s = .ok () t) : ∃ ref, attrCell owner field = .ok ref ∧
      t = { s with objects := s.objects.modify ref (withField · field v) } := by
  change (orFault (attrCell owner field) >>= _) s = .ok () t at h
  cases hc : attrCell owner field with
  | ok ref =>
    rw [hc] at h
    cases h
    exact ⟨ref, rfl, rfl⟩
  | error f => rw [hc] at h; cases h

theorem lookup_withField (field : String) (v : Value) : ∀ fields : List (String × Value),
    (withField fields field v).lookup field = some v
  | [] => by simp [withField]
  | (f, old) :: rest => by
    unfold withField
    split
    · simp
    · rename_i hf
      have hne : (field == f) = false := by
        rw [beq_eq_false_iff_ne]
        rintro rfl
        exact hf (beq_self_eq_true field)
      rw [List.lookup_cons, hne]
      exact lookup_withField field v rest

theorem object_lookup_lt {s : State} {ref : Nat} {field : String} {v : Value}
    (h : (s.object ref).lookup field = some v) : ref < s.objects.size := by
  unfold State.object at h
  by_cases hr : ref < s.objects.size
  · exact hr
  · simp [Array.getD, hr] at h

theorem attrCell_ok {owner : Value} {field : String} {ref : Nat}
    (h : attrCell owner field = .ok ref) :
    isSpecial field = false ∧ (owner = .object ref ∨ ∃ f, owner = .function f ∧ f.ref = ref) := by
  unfold attrCell at h
  split at h
  · cases h
  · rename_i hf
    refine ⟨by simpa using hf, ?_⟩
    split at h <;> cases h
    · exact .inl rfl
    · exact .inr ⟨_, rfl, rfl⟩

/-- What is read as an attribute can be stored to, unless it is a method. -/
theorem attrCell_of_getAttr {owner v : Value} {field : String} {s : State}
    (h : getAttr s owner field = .ok v) :
    (∃ ref, attrCell owner field = .ok ref) ∨ ∃ m, v = .method m := by
  unfold getAttr at h
  unfold attrCell
  split at h
  · cases h
  rename_i hf
  rw [if_neg hf]
  split at h
  · exact .inl ⟨_, rfl⟩
  · exact .inl ⟨_, rfl⟩
  · cases h
    exact .inr ⟨_, rfl⟩
  · cases h
    exact .inr ⟨_, rfl⟩
  · cases h
    exact .inr ⟨_, rfl⟩
  · cases h

/-- What is stored to a field is read back. -/
theorem getAttr_setAttr {owner v old : Value} {field : String} {r s t : State}
    (hr : getAttr r owner field = .ok old) (hs : s.objects = r.objects)
    (h : setAttr owner field v s = .ok () t) : getAttr t owner field = .ok v := by
  obtain ⟨ref, hc, rfl⟩ := setAttr_ok h
  -- the object is there, for a field of it has been read
  have back : ∀ w, (r.object ref).lookup field = some w →
      (({ s with objects := s.objects.modify ref (withField · field v) } : State).object ref).lookup
        field = some v := by
    intro w hw
    have hlt : ref < s.objects.size := by
      rw [hs]
      exact object_lookup_lt hw
    show ((s.objects.modify ref (withField · field v)).getD ref []).lookup field = some v
    rw [getD_modify hlt, lookup_withField]
  obtain ⟨hf, hc⟩ := attrCell_ok hc
  rcases hc with rfl | ⟨f, rfl, rfl⟩ <;>
    simp only [getAttr, hf, Bool.false_eq_true, if_false] at hr ⊢
  · split at hr
    · rename_i w hw
      simp only [back w hw]
    · cases hr
  · split at hr
    · rename_i w hw
      simp only [back w hw]
    · cases hr

end ConsoleCpp.Machine
