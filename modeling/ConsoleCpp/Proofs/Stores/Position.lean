/-
Assignments and steps in the place of a statement and as values. The line that is generated for an
expression in the place of a statement and the generated form of the expression as a value store to
the same place, but not in the same order: a line takes the value of an assignment before its place
and reads the old value of a compound one before its operand, and it changes a list in place. The
main theorem says that these are the only differences, and exactly when they show.
-/
import ConsoleCpp.Proofs.Control.Refusal
import ConsoleCpp.Proofs.Generate.Depth
import ConsoleCpp.Proofs.Stores.Spots

namespace ConsoleCpp.Generate

open Machine Structured

/-! ## Lines and values -/

/-- A line and the expression that stores the same as a value. -/
inductive Counterpart : Target.Stmt → Target.Expr → Prop where
  | eval (e : Target.Expr) : Counterpart (.eval e) e
  | bind (id : String) (value : Target.Expr) :
    Counterpart (.assign (.name id) value) (.bind id value)
  | store (owner key value : Target.Expr) :
    Counterpart (.assign (.item owner key) value) (.store owner key value)
  | storeAttr (owner : Target.Expr) (field : String) (value : Target.Expr) :
    Counterpart (.assign (.attr owner field) value) (.storeAttr owner field value)
  | rebind (id : String) (op : ArithOp) (value : Target.Expr) :
    Counterpart (.augment (.name id) op value)
      (.bind id (.binary op.toBinary (.name id) value))
  | step (op : StepOp) (keepsOld : Bool) (id : String) :
    Counterpart (.augment (.name id) op.arith (.number "1")) (.step op keepsOld id)
  | update (owner key : Target.Expr) (op : ArithOp) (value : Target.Expr)
      (keepsOld : Option Bool) :
    Counterpart (.augment (.item owner key) op value) (.update owner key op value keepsOld)
  | updateAttr (owner : Target.Expr) (field : String) (op : ArithOp) (value : Target.Expr)
      (keepsOld : Option Bool) :
    Counterpart (.augment (.attr owner field) op value) (.updateAttr owner field op value keepsOld)

section

variable {renames : Renames} {depth : Nat} {target : Target.Place} {value form : Target.Expr}

theorem counterpart_store {op : AssignOp} : ∀ {e : Expr}, place renames e = .ok target →
    store renames depth op value e = .ok form → Counterpart (assignLine target value op) form
  | .name id, hp, hf => by
    cases op <;> cases hp <;> cases hf
    · exact .bind _ _
    · exact .rebind _ _ _
  | .index owner key, hp, hf => by
    simp only [place] at hp
    simp only [store] at hf
    obtain ⟨o, ho, hp⟩ := bind_ok hp
    obtain ⟨k, hk, hp⟩ := bind_ok hp
    obtain ⟨o', ho', hf⟩ := bind_ok hf
    obtain ⟨k', hk', hf⟩ := bind_ok hf
    -- the two positions differ in depth, on which what is generated does not depend
    obtain rfl := expr_depth owner _ _ _ _ ho ho'
    obtain rfl := expr_depth key _ _ _ _ hk hk'
    cases op <;> cases hp <;> cases hf
    · exact .store _ _ _
    · exact .update _ _ _ _ _
  | .member _ owner field, hp, hf => by
    simp only [place] at hp
    simp only [store] at hf
    obtain ⟨o, ho, hp⟩ := bind_ok hp
    obtain ⟨o', ho', hf⟩ := bind_ok hf
    obtain rfl := expr_depth owner _ _ _ _ ho ho'
    cases op <;> cases hp <;> cases hf
    · exact .storeAttr _ _ _
    · exact .updateAttr _ _ _ _ _

theorem counterpart_step {op : StepOp} {keepsOld : Bool} : ∀ {e : Expr},
    place renames e = .ok target → step renames depth op keepsOld e = .ok form →
      Counterpart (.augment target op.arith (.number "1")) form
  | .name id, hp, hf => by
    cases hp
    cases hf
    exact .step op keepsOld _
  | .index owner key, hp, hf => by
    simp only [place] at hp
    simp only [step] at hf
    obtain ⟨o, ho, hp⟩ := bind_ok hp
    obtain ⟨k, hk, hp⟩ := bind_ok hp
    obtain ⟨o', ho', hf⟩ := bind_ok hf
    obtain ⟨k', hk', hf⟩ := bind_ok hf
    obtain rfl := expr_depth owner _ _ _ _ ho ho'
    obtain rfl := expr_depth key _ _ _ _ hk hk'
    cases hp
    cases hf
    exact .update _ _ _ _ _
  | .member _ owner field, hp, hf => by
    simp only [place] at hp
    simp only [step] at hf
    obtain ⟨o, ho, hp⟩ := bind_ok hp
    obtain ⟨o', ho', hf⟩ := bind_ok hf
    obtain rfl := expr_depth owner _ _ _ _ ho ho'
    cases hp
    cases hf
    exact .updateAttr _ _ _ _ _

/-- What the two positions of an expression generate belongs together. -/
theorem counterpart {e : Expr} {line : Target.Stmt}
    (hline : expressionStatement renames e = .ok line)
    (hvalue : expr renames depth e = .ok value) : Counterpart line value := by
  cases lineOf hline with
  | assign hd hm hp hv =>
    simp only [expr] at hvalue
    obtain ⟨_, -, hvalue⟩ := bind_ok hvalue
    obtain ⟨result, hr, hvalue⟩ := bind_ok hvalue
    obtain rfl := expr_depth _ _ _ _ _ hv hr
    exact counterpart_store hp hvalue
  | divide ho hv =>
    simp only [expr] at hvalue
    obtain ⟨_, -, hvalue⟩ := bind_ok hvalue
    obtain ⟨result, hr, hvalue⟩ := bind_ok hvalue
    obtain rfl := expr_depth _ _ _ _ _ hv hr
    cases hvalue
    exact .bind _ _
  | step hp =>
    simp only [expr] at hvalue
    obtain ⟨_, -, hvalue⟩ := bind_ok hvalue
    exact counterpart_step hp hvalue
  | stepAfter hp =>
    simp only [expr] at hvalue
    obtain ⟨_, -, hvalue⟩ := bind_ok hvalue
    exact counterpart_step hp hvalue
  | value hf =>
    obtain rfl := expr_depth e _ _ _ _ hf hvalue
    exact .eval _

end

/-! ## When the order shows -/

section

variable (call : Caller) (env : List Nat) (s : State)

/-- From a state, the order in which a line takes its operands makes no difference: the value of an
assignment may as well be computed after its place is located, and the place of a compound one be
read after the operand is computed. A variable is read first in either position. -/
def Independent : Target.Stmt → Prop
  | .assign target value =>
    ends (valueFirst call env target value) s = ends (placeFirst call env target value) s
  | .augment (.name _) _ _ => True
  | .augment target op value =>
    ends (early call env target value >>= amend env (arith op)) s =
      ends (late call env target value >>= amend env (arith op)) s
  | _ => True

/-- From a state, a line finds a list in its place and changes it in place. -/
def ChangesList : Target.Stmt → Prop
  | .augment target op value => ∃ spot ref v t u,
    early call env target value s = .ok (spot, .list ref, v) t ∧
      inPlace op (.list ref) v t = .ok (.list ref) u
  | _ => False

/-- From a state, a line changes a list in place in vain: the list is as it was, and it cannot be
written back, since its place is gone. The plain operation on a variable faults as well. -/
def InVain : Target.Stmt → Prop
  | .augment target op value => ∃ spot ref v t,
    early call env target value s = .ok (spot, .list ref, v) t ∧
      inPlace op (.list ref) v t = .ok (.list ref) t ∧
      (∃ f, spot.write env (.list ref) t = .error (.fault f) t) ∧
      ((∃ id, target = .name id) → ∃ f, arith op (.list ref) v t = .error (.fault f) t)
  | _ => False

end

section

variable {call : Caller} {env : List Nat} {s : State}

theorem ends_exec_eq_iff (rounds : Nat) (path : String) {line : Target.Stmt} {value : Target.Expr}
    (h : Counterpart line value) (hc : ¬ ChangesList call env s line) :
    ends (exec call rounds path env line) s = ends (eval call env value) s ↔
      Independent call env s line := by
  have hi : ∀ {target op value}, ¬ ChangesList call env s (.augment target op value) →
      ends (exec call rounds path env (.augment target op value)) s =
        ends (early call env target value >>= amend env (arith op)) s := by
    intro target op value hc
    rw [ends_exec_augment]
    exact ends_early_inPlace fun spot ref v t u he hi => hc ⟨spot, ref, v, t, u, he, hi⟩
  cases h with
  | eval e => simp only [ends_exec_eval, Independent]
  | bind id value => rw [ends_exec_assign, ends_eval_bind, Independent]
  | store owner key value => rw [ends_exec_assign, ends_eval_store, Independent]
  | storeAttr owner field value => rw [ends_exec_assign, ends_eval_storeAttr, Independent]
  | rebind id op value => simp only [hi hc, ends_eval_rebind, Independent]
  | step op keepsOld id => simp only [hi hc, ends_eval_step, Independent]
  | update owner key op value keepsOld => rw [hi hc, ends_eval_update, Independent]; exact nofun
  | updateAttr owner field op value keepsOld =>
    rw [hi hc, ends_eval_updateAttr, Independent]; exact nofun

theorem ends_late_eq_iff {target : Target.Place} {op : ArithOp} {value : Target.Expr}
    (hn : ∀ id, target ≠ .name id) (hc : ChangesList call env s (.augment target op value)) :
    ends (early call env target value >>= amend env (inPlace op)) s =
        ends (late call env target value >>= amend env (arith op)) s ↔
      InVain call env s (.augment target op value) := by
  constructor
  · intro h
    obtain ⟨spot, ref, v, t, u, he, hi⟩ := hc
    rw [ends_bind_of_ok he, ends_late_of_early he] at h
    -- the value finds the place gone, or it reads it and combines what it finds there
    rcases Spot.steady_read env spot t with ⟨old, hr⟩ | ⟨f, hr⟩
    · rw [ends_bind_of_ok hr] at h
      obtain ⟨rfl, hw, -⟩ := amend_inPlace_eq hi (.inl ⟨early_ne_name hn he, hr⟩) h
      exact ⟨spot, ref, v, u, he, hi, hw, fun ⟨id, hid⟩ => absurd hid (hn id)⟩
    · rw [ends_bind_of_error hr, ends_of_fault hr, amend, ends_bind_of_ok hi] at h
      rcases Spot.write_cases env spot (.list ref) u with ⟨w, hw⟩ | ⟨g, hw⟩
      · rw [ends_of_ok hw] at h
        cases h
      · rw [ends_of_fault hw] at h
        cases h
        exact ⟨spot, ref, v, t, he, hi, ⟨g, hw⟩, fun ⟨id, hid⟩ => absurd hid (hn id)⟩
  · rintro ⟨spot, ref, v, t, he, hi, ⟨f, hw⟩, -⟩
    obtain ⟨u, -, hr, -⟩ := early_ok he
    obtain ⟨g, hg⟩ := Spot.read_of_write_error (early_ne_name hn he) (fun _ h => by cases h)
      (fun _ h => by cases h) hr hw
    rw [ends_bind_of_ok he, ends_late_of_early he, ends_bind_of_error hg, ends_of_fault hg, amend,
      ends_bind_of_ok hi, ends_of_fault hw]

theorem ends_early_eq_iff {id : String} {op : ArithOp} {value : Target.Expr}
    (hc : ChangesList call env s (.augment (.name id) op value)) :
    ends (early call env (.name id) value >>= amend env (inPlace op)) s =
        ends (early call env (.name id) value >>= amend env (arith op)) s ↔
      InVain call env s (.augment (.name id) op value) := by
  constructor
  · intro h
    obtain ⟨spot, ref, v, t, u, he, hi⟩ := hc
    rw [ends_bind_of_ok he, ends_bind_of_ok he] at h
    obtain ⟨rfl, hw, hl⟩ := amend_inPlace_eq hi (.inr ⟨ref, rfl⟩) h
    exact ⟨spot, ref, v, u, he, hi, hw, fun _ => hl ⟨ref, rfl⟩⟩
  · rintro ⟨spot, ref, v, t, he, hi, ⟨f, hw⟩, hl⟩
    obtain ⟨g, hg⟩ := hl ⟨id, rfl⟩
    rw [ends_bind_of_ok he, ends_bind_of_ok he, amend, amend, ends_bind_of_ok hi, ends_of_fault hw,
      ends_bind_of_error hg, ends_of_fault hg]

/-- A line that changes a list in place ends like the value only if it does so in vain. -/
theorem ends_exec_eq_iff_inVain (rounds : Nat) (path : String) {line : Target.Stmt}
    {value : Target.Expr} (h : Counterpart line value) (hc : ChangesList call env s line) :
    ends (exec call rounds path env line) s = ends (eval call env value) s ↔
      InVain call env s line := by
  cases h with
  | eval _ | bind _ _ | store _ _ _ | storeAttr _ _ _ => exact hc.elim
  | rebind id op value =>
    rw [ends_exec_augment, ends_eval_rebind]
    exact ends_early_eq_iff hc
  | step op keepsOld id =>
    rw [ends_exec_augment, ends_eval_step]
    exact ends_early_eq_iff hc
  | update owner key op value keepsOld =>
    rw [ends_exec_augment, ends_eval_update]
    exact ends_late_eq_iff nofun hc
  | updateAttr owner field op value keepsOld =>
    rw [ends_exec_augment, ends_eval_updateAttr]
    exact ends_late_eq_iff nofun hc

end

/-! ## Operands that change nothing -/

section

variable (call : Caller) (env : List Nat) (s : State)

/-- The operands that a line takes in another order than the expression leave the state as it is. -/
def SteadyOperands : Target.Stmt → Prop
  | .assign target value => Steady (locate call env target) s ∧ Steady (eval call env value) s
  | .augment target _ value => ∀ spot t, locate call env target s = .ok spot t →
    Steady (eval call env value) t
  | _ => True

variable {call env s}

theorem independent_of_steady {line : Target.Stmt} (h : SteadyOperands call env s line) :
    Independent call env s line := by
  have swapped : ∀ {target op value}, SteadyOperands call env s (.augment target op value) →
      ends (early call env target value >>= amend env (arith op)) s =
        ends (late call env target value >>= amend env (arith op)) s := by
    intro target op value h
    simp only [early, late, bind_assoc, pure_bind]
    exact ends_bind_congr fun spot t hl => ends_swap (Spot.steady_read env spot t) (h spot t hl) _
  unfold Independent
  split
  · exact ends_swap h.2 h.1 _
  · trivial
  · exact swapped h
  · trivial

end

/-! ## Expressions that need no condition -/

section

variable {renames : Renames} {line : Target.Stmt}

/-- Whether the two positions of an expression take its operands in the same order and change no
list in place: steps, assignments to a variable by an operator that lists do not have, and those
that stand in a helper in either position. -/
def isSettled : Expr → Bool
  | .assign (.update .add) _ _ | .assign (.update .mul) _ _ => false
  | .assign .set (.name _) _ | .assign (.update .sub) (.name _) _ => true
  | .assign (.update .div) _ _ | .assign (.update .mod) _ _ => true
  | .assign _ _ _ => false
  | _ => true

theorem independent_name (call : Caller) (env : List Nat) (s : State) (id : String)
    (value : Target.Expr) : Independent call env s (.assign (.name id) value) := by
  simp only [Independent, valueFirst, placeFirst, locate, pure_bind]

theorem not_changesList_sub (call : Caller) (env : List Nat) (s : State) (target : Target.Place)
    (value : Target.Expr) : ¬ ChangesList call env s (.augment target .sub value) := by
  rintro ⟨spot, ref, v, t, u, -, hi⟩
  cases hi

theorem independent_step (call : Caller) (env : List Nat) (s : State) (target : Target.Place)
    (op : ArithOp) : Independent call env s (.augment target op (.number "1")) := by
  cases target with
  | name id => trivial
  | attr owner field => simp only [Independent, early, late, eval, pure_bind]
  | item owner key => simp only [Independent, early, late, eval, pure_bind]

theorem not_changesList_step (call : Caller) (env : List Nat) (s : State) (target : Target.Place)
    (op : StepOp) : ¬ ChangesList call env s (.augment target op.arith (.number "1")) := by
  rintro ⟨spot, ref, v, t, u, he, hi⟩
  -- the operand is the number one, which no list takes
  obtain ⟨_, -, -, hv⟩ := early_ok he
  rw [eval, literalNumber_one] at hv
  cases hv
  cases op <;> cases hi

theorem settled {e : Expr} (hline : expressionStatement renames e = .ok line)
    (hs : isSettled e = true) (call : Caller) (env : List Nat) (s : State) :
    Independent call env s line ∧ ¬ ChangesList call env s line := by
  cases lineOf hline with
  | assign hd hm hp hv =>
    rename_i op target value _ _
    -- what is left of the settled assignments goes to a variable, plainly or as a difference
    cases op with
    | set =>
      cases target with
      | name _ =>
        cases hp
        exact ⟨independent_name call env s _ _, id⟩
      | _ => cases hs
    | update op =>
      cases op with
      | sub =>
        cases target with
        | name _ =>
          cases hp
          exact ⟨trivial, not_changesList_sub call env s _ _⟩
        | _ => cases hs
      | add | mul => cases hs
      | div => exact absurd rfl hd
      | mod => exact absurd rfl hm
  | divide ho hv => exact ⟨independent_name call env s _ _, id⟩
  | step hp => exact ⟨independent_step call env s _ _, not_changesList_step call env s _ _⟩
  | stepAfter hp => exact ⟨independent_step call env s _ _, not_changesList_step call env s _ _⟩
  | value hf => exact ⟨trivial, id⟩

end

/-! ## The two positions -/

theorem runLines_line {renames : Renames} {e : Expr} {line : Target.Stmt}
    (hline : expressionStatement renames e = .ok line) (call : Caller) (rounds : Nat) (path : String)
    (env : List Nat) (s : State) :
    (linesTaken [line] = true →
      ends (runLines call rounds path env [line]) s = ends (exec call rounds path env line) s) ∧
    (linesTaken [line] = false → ends (runLines call rounds path env [line]) s = (.faulted, s)) := by
  have hstmt : stmt ⟨0, [], renames, .nothing⟩ 0 (.expression e) = .ok ([line], 0) := by
    rw [stmt, hline]
    rfl
  have hr := refusal_eq_none_iff rfl rfl hstmt
  constructor
  · intro ht
    rw [runLines, hr.2 ⟨ht, Nat.zero_le _⟩, execAll_singleton]
  · intro ht
    cases hl : (⟨[], [line]⟩ : Target.Program).refusal? with
    | none =>
      rw [(hr.1 hl).1] at ht
      cases ht
    | some l =>
      rw [runLines, hl]
      rfl

/-- An assignment or step in the place of a statement and as a value, from every state and whatever
calls do. The two end alike, in the same state, exactly if the order of the operands makes no
difference, as long as the line changes no list in place; a line that does so ends like the value
only if it does so in vain, and so never if it finishes. Steps, and assignments that are settled,
need no condition. A line whose text is refused ends like the value only if that faults at once. -/
theorem ends_line_eq_ends_value_iff {renames : Renames} {depth : Nat} {e : Expr}
    {line : Target.Stmt} {value : Target.Expr} (hline : expressionStatement renames e = .ok line)
    (hvalue : expr renames depth e = .ok value) (call : Caller) (rounds : Nat) (path : String)
    (env : List Nat) (s : State) :
    (linesTaken [line] = true → ¬ ChangesList call env s line →
      (ends (runLines call rounds path env [line]) s = ends (eval call env value) s ↔
        Independent call env s line)) ∧
    (linesTaken [line] = true → ChangesList call env s line →
      (ends (runLines call rounds path env [line]) s = ends (eval call env value) s ↔
        InVain call env s line)) ∧
    (isSettled e = true → Independent call env s line ∧ ¬ ChangesList call env s line) ∧
    (linesTaken [line] = false →
      (ends (runLines call rounds path env [line]) s = ends (eval call env value) s ↔
        ends (eval call env value) s = (.faulted, s))) := by
  obtain ⟨htaken, hrefused⟩ := runLines_line hline call rounds path env s
  have hc := counterpart hline hvalue
  refine ⟨fun ht hn => ?_, fun ht hl => ?_, fun hs => settled hline hs call env s, fun ht => ?_⟩
  · rw [htaken ht]
    exact ends_exec_eq_iff rounds path hc hn
  · rw [htaken ht]
    exact ends_exec_eq_iff_inVain rounds path hc hl
  · rw [hrefused ht]
    exact eq_comm

/-- `a[0] += value` -/
def addedTo (value : Expr) : Expr := .assign (.update .add) (.index (.name "a") (.number "0")) value

/-- `a[0] = 5` -/
def storedFive : Expr := .assign .set (.index (.name "a") (.number "0")) (.number "5")

/-- `a += a` -/
def doubled : Expr := .assign (.update .add) (.name "a") (.name "a")

/-- A state in which `a` is an array of one zero. -/
def zeroArray : State :=
  { State.empty [] with lists := #[#[.int 0]], frames := #[[("a", some (.list 0))]] }

/-- From this state the positions of `a[0] += 5` agree, those of `a[0] += (a[0] = 5)` do not because
of the order, and those of `a += a` do not because the line extends the array in place. -/
theorem ends_line_eq_ends_value_iff_zeroArray :
    (∃ line value, expressionStatement [] (addedTo (.number "5")) = .ok line ∧
      expr [] 1 (addedTo (.number "5")) = .ok value ∧ ∀ call rounds path,
        ends (runLines call rounds path [0] [line]) zeroArray =
          ends (eval call [0] value) zeroArray) ∧
    (∃ line value, expressionStatement [] (addedTo storedFive) = .ok line ∧
      expr [] 1 (addedTo storedFive) = .ok value ∧ ∀ call rounds path,
        ends (runLines call rounds path [0] [line]) zeroArray ≠
          ends (eval call [0] value) zeroArray) ∧
    (∃ line value, expressionStatement [] doubled = .ok line ∧
      expr [] 1 doubled = .ok value ∧ ∀ call rounds path,
        ends (runLines call rounds path [0] [line]) zeroArray ≠
          ends (eval call [0] value) zeroArray) := by
  refine ⟨?_, ?_, ?_⟩
  · have hline : expressionStatement [] (addedTo (.number "5")) = .ok _ := rfl
    have hvalue : expr [] 1 (addedTo (.number "5")) = .ok _ := rfl
    refine ⟨_, _, hline, hvalue, fun call rounds path => ?_⟩
    refine ((ends_line_eq_ends_value_iff hline hvalue call rounds path [0] zeroArray).1
      (by decide +kernel) ?_).2 (independent_of_steady fun _ _ _ => .inl ⟨.int 5, rfl⟩)
    rintro ⟨spot, ref, v, t, u, he, -⟩
    cases he
  · have hline : expressionStatement [] (addedTo storedFive) = .ok _ := rfl
    have hvalue : expr [] 1 (addedTo storedFive) = .ok _ := rfl
    refine ⟨_, _, hline, hvalue, fun call rounds path heq => ?_⟩
    have hi := ((ends_line_eq_ends_value_iff hline hvalue call rounds path [0] zeroArray).1
      (by decide +kernel) (by rintro ⟨spot, ref, v, t, u, he, -⟩; cases he)).1 heq
    -- the line leaves 5 in the array, the value 10
    change (End.finished, { zeroArray with lists := #[#[.int 5]] }) =
      (End.finished, { zeroArray with lists := #[#[.int 10]] }) at hi
    simp at hi
  · have hline : expressionStatement [] doubled = .ok _ := rfl
    have hvalue : expr [] 1 doubled = .ok _ := rfl
    refine ⟨_, _, hline, hvalue, fun call rounds path heq => ?_⟩
    obtain ⟨spot, ref, v, t, he, -, ⟨f, hw⟩, -⟩ :=
      ((ends_line_eq_ends_value_iff hline hvalue call rounds path [0] zeroArray).2.1
        (by decide +kernel) ⟨_, _, _, _, _, rfl, rfl⟩).1 heq
    -- the variable is still there to be written
    cases he
    cases hw

end ConsoleCpp.Generate
