/-
Steps that are worth the old value. Such a step of an element or of a field saves the value that it
finds and gives it back. One of a variable computes it again, from the number that it has stored. Both
store the same number; the value that is computed again is a number too, so a truth value that is
stepped in a variable comes back as the number that it counts as.
-/
import ConsoleCpp.Proofs.Stores.Position

namespace ConsoleCpp.Machine

/-- The number that a step makes of a number. -/
def stepped : StepOp → Int → Int
  | .increment, n => n + 1
  | .decrement, n => n - 1

section

variable {op : StepOp} {v : Value} {n : Int}

theorem arith_step (hv : v.int? = some n) (op : StepOp) (s : State) :
    arith op.arith v (.int 1) s = .ok (.int (stepped op n)) s := by
  cases v with
  | int m =>
    cases hv
    cases op <;> rfl
  | bool b =>
    cases hv
    cases op <;> rfl
  | _ => cases hv

theorem arith_stepBack (op : StepOp) (n : Int) (s : State) :
    (match op with
      | .increment => arith .sub (.int (stepped op n)) (.int 1)
      | .decrement => arith .add (.int (stepped op n)) (.int 1)) s = .ok (.int n) s := by
  cases op with
  | increment =>
    show EStateM.Result.ok (Value.int (n + 1 - 1)) s = _
    rw [Int.add_sub_cancel]
  | decrement =>
    show EStateM.Result.ok (Value.int (n - 1 + 1)) s = _
    rw [Int.sub_add_cancel]

/-- A truth value is not the number that it counts as. -/
theorem int_eq_iff (hv : v.int? = some n) : Value.int n = v ↔ ∀ b, v ≠ .bool b := by
  cases v with
  | int m =>
    cases hv
    exact ⟨fun _ _ => nofun, fun _ => rfl⟩
  | bool b => exact ⟨nofun, fun h => absurd rfl (h b)⟩
  | _ => cases hv

end

section

variable {env : List Nat} {v : Value} {n : Int} {s : State}

theorem stepVariable_old {id : String} (hv : v.int? = some n) (hl : lookup s id env = .ok v)
    (op : StepOp) : ∃ t, stepVariable env op true id s = .ok (.int n) t ∧
      (Spot.name id).write env (.int (stepped op n)) s = .ok () t := by
  have hr := Spot.read_name_iff.2 hl
  obtain ⟨t, hw⟩ := Spot.write_of_read hv hr (.int (stepped op n))
  have ha : assign env id (.int (stepped op n)) s = .ok () t := hw
  refine ⟨t, ?_, hw⟩
  show ((Spot.name id).read env >>= _) s = _
  rw [bind_of_ok hr, bind_of_ok (arith_step hv op s), bind_of_ok ha]
  exact arith_stepBack op n t

/-- An update that keeps the old value, by the spot that it updates. -/
theorem update_old {spot : Spot} (hv : v.int? = some n) (hr : spot.read env s = .ok v s)
    (op : StepOp) : ∃ t, (do
        let old ← spot.read env
        let new ← arith op.arith old (.int 1)
        spot.write env new
        return old) s = .ok v t ∧ spot.write env (.int (stepped op n)) s = .ok () t := by
  obtain ⟨t, hw⟩ := Spot.write_of_read hv hr (.int (stepped op n))
  refine ⟨t, ?_, hw⟩
  rw [bind_of_ok hr, bind_of_ok (arith_step hv op s), bind_of_ok hw]
  rfl

end

end ConsoleCpp.Machine

namespace ConsoleCpp.Generate

open Machine

/-- From the state `s`, the place that is generated for an expression is located, which leaves the
state `t`, at a spot that holds a value there. -/
def Holds (call : Caller) (env : List Nat) (renames : Renames) (s : State) (e : Expr) (spot : Spot)
    (v : Value) (t : State) : Prop :=
  ∃ target, place renames e = .ok target ∧ locate call env target s = .ok spot t ∧
    spot.read env t = .ok v t

section

variable {call : Caller} {env : List Nat} {renames : Renames} {depth : Nat} {op : StepOp}
  {form : Target.Expr} {spot : Spot} {v : Value} {n : Int} {s t : State}

theorem holds_name {id : String} (h : Holds call env renames s (.name id) spot v t) :
    spot = .name (bind renames id) ∧ t = s ∧ lookup s (bind renames id) env = .ok v := by
  obtain ⟨_, hp, hl, hr⟩ := h
  cases hp
  cases hl
  exact ⟨rfl, rfl, Spot.read_name_iff.1 hr⟩

/-- An element is located by its owner and its key, one after the other. -/
theorem holds_index {owner key : Expr} (h : Holds call env renames s (.index owner key) spot v t) :
    ∃ o k vo vk w, expr renames 1 owner = .ok o ∧ expr renames 1 key = .ok k ∧
      eval call env o s = .ok vo w ∧ eval call env k w = .ok vk t ∧ spot = .item vo vk ∧
      spot.read env t = .ok v t := by
  obtain ⟨_, hp, hl, hr⟩ := h
  obtain ⟨o, ho, hp⟩ := bind_ok hp
  obtain ⟨k, hk, hp⟩ := bind_ok hp
  cases hp
  obtain ⟨vo, w, hvo, hl⟩ := run_bind_ok hl
  obtain ⟨vk, _, hvk, hl⟩ := run_bind_ok hl
  cases hl
  exact ⟨o, k, vo, vk, w, ho, hk, hvo, hvk, rfl, hr⟩

theorem holds_member {mark : MemberOp} {owner : Expr} {field : String}
    (h : Holds call env renames s (.member mark owner field) spot v t) :
    ∃ o vo, expr renames 1 owner = .ok o ∧ eval call env o s = .ok vo t ∧
      spot = .attr vo (Target.safeName field) ∧ spot.read env t = .ok v t := by
  obtain ⟨_, hp, hl, hr⟩ := h
  obtain ⟨o, ho, hp⟩ := bind_ok hp
  cases hp
  obtain ⟨vo, _, hvo, hl⟩ := run_bind_ok hl
  cases hl
  exact ⟨o, vo, ho, hvo, rfl, hr⟩

/-- What is no variable, element or field holds nothing. -/
theorem isAssignable_of_holds {e : Expr} (h : Holds call env renames s e spot v t) :
    e.isAssignable = true := by
  obtain ⟨_, hp, -⟩ := h
  cases e with
  | name _ | index _ _ | member _ _ _ => rfl
  | _ => cases hp

theorem eval_stepAfter_name {id : String} (hv : v.int? = some n)
    (hl : lookup s (bind renames id) env = .ok v)
    (h : expr renames depth (.stepAfter op (.name id)) = .ok form) : ∃ u,
      eval call env form s = .ok (.int n) u ∧
      (Spot.name (bind renames id)).write env (.int (stepped op n)) s = .ok () u := by
  simp only [expr] at h
  obtain ⟨_, -, h⟩ := bind_ok h
  cases h
  simp only [eval]
  exact stepVariable_old hv hl op

theorem eval_stepAfter_place {e : Expr} (hn : ∀ id, e ≠ .name id) (hv : v.int? = some n)
    (he : Holds call env renames s e spot v t)
    (h : expr renames depth (.stepAfter op e) = .ok form) : ∃ u,
      eval call env form s = .ok v u ∧ spot.write env (.int (stepped op n)) t = .ok () u := by
  simp only [expr] at h
  obtain ⟨d, -, h⟩ := bind_ok h
  cases e with
  | name id => exact absurd rfl (hn id)
  | index owner key =>
    obtain ⟨o, k, vo, vk, w, ho, hk, hvo, hvk, rfl, hr⟩ := holds_index he
    obtain ⟨u, hu, hw⟩ := update_old hv hr op
    simp only [step] at h
    obtain ⟨o', ho', h⟩ := bind_ok h
    obtain ⟨k', hk', h⟩ := bind_ok h
    -- the place is generated at another depth, but the owner and the key are the same forms there
    obtain rfl := expr_depth owner _ _ _ _ ho ho'
    obtain rfl := expr_depth key _ _ _ _ hk hk'
    cases h
    refine ⟨u, ?_, hw⟩
    simp only [eval]
    rw [bind_of_ok hvo, bind_of_ok hvk]
    exact hu
  | member _ owner field =>
    obtain ⟨o, vo, ho, hvo, rfl, hr⟩ := holds_member he
    obtain ⟨u, hu, hw⟩ := update_old hv hr op
    simp only [step] at h
    obtain ⟨o', ho', h⟩ := bind_ok h
    obtain rfl := expr_depth owner _ _ _ _ ho ho'
    cases h
    refine ⟨u, ?_, hw⟩
    simp only [eval]
    rw [bind_of_ok hvo]
    exact hu
  | _ => cases isAssignable_of_holds he

end

/-- The two ways to be worth the old value. A variable and an element or field hold the same integer
or truth value, and a step after it is generated for each. Both forms finish and store the same
number, and once the place is located they change nothing else. The one for the element or field is
worth the value, the one for the variable the number that the value counts as. So the two are worth
the same exactly if the value is no truth value. -/
theorem stepAfter_eq_iff (call call' : Caller) {env env' : List Nat} {renames renames' : Renames}
    {depth depth' : Nat} {op : StepOp} {id : String} {e : Expr} {form form' : Target.Expr}
    {spot : Spot} {v : Value} {n : Int} {s s' t : State} (hv : v.int? = some n)
    (hform : expr renames depth (.stepAfter op (.name id)) = .ok form)
    (hheld : lookup s (bind renames id) env = .ok v)
    (hform' : expr renames' depth' (.stepAfter op e) = .ok form') (hn : ∀ id, e ≠ .name id)
    (hheld' : Holds call' env' renames' s' e spot v t) :
    ∃ u u',
      (eval call env form s = .ok (.int n) u ∧
        assign env (bind renames id) (.int (stepped op n)) s = .ok () u ∧
        lookup u (bind renames id) env = .ok (.int (stepped op n))) ∧
      (eval call' env' form' s' = .ok v u' ∧
        spot.write env' (.int (stepped op n)) t = .ok () u' ∧
        spot.read env' u' = .ok (.int (stepped op n)) u') ∧
      (Value.int n = v ↔ ∀ b, v ≠ .bool b) := by
  obtain ⟨u, hu, hw⟩ := eval_stepAfter_name hv hheld hform
  obtain ⟨u', hu', hw'⟩ := eval_stepAfter_place hn hv hheld' hform'
  obtain ⟨_, _, _, hr'⟩ := hheld'
  exact ⟨u, u', ⟨hu, hw, lookup_assign hw⟩, ⟨hu', hw', Spot.read_written hr' hw'⟩, int_eq_iff hv⟩

/-- A state in which a variable `b`, the element of an array `a` and the field `x` of an object `p`
hold the same value. -/
def heldThrice (v : Value) : State :=
  { State.empty [] with
    lists := #[#[v]]
    objects := #[[("x", v)]]
    frames := #[[("b", some v), ("a", some (.list 0)), ("p", some (.object 0))]] }

/-- `a[0]` -/
def firstElement : Expr := .index (.name "a") (.number "0")

/-- `p.x` -/
def fieldOfObject : Expr := .member .dot (.name "p") "x"

/-- From 7, `b++` and `p.x++` are both worth 7; from `true`, `b--` is worth 1 and `a[0]--` is worth
`true`. All four have stored the next number. -/
theorem stepAfter_eq_iff_heldThrice :
    (∃ form form' u u', expr [] 0 (.stepAfter .increment (.name "b")) = .ok form ∧
      expr [] 0 (.stepAfter .increment fieldOfObject) = .ok form' ∧
      eval (call 1) [0] form (heldThrice (.int 7)) = .ok (.int 7) u ∧
      eval (call 1) [0] form' (heldThrice (.int 7)) = .ok (.int 7) u' ∧
      lookup u "b" [0] = .ok (.int 8) ∧
      (Spot.attr (.object 0) "x").read [0] u' = .ok (.int 8) u') ∧
    (∃ form form' u u', expr [] 0 (.stepAfter .decrement (.name "b")) = .ok form ∧
      expr [] 0 (.stepAfter .decrement firstElement) = .ok form' ∧
      eval (call 1) [0] form (heldThrice (.bool true)) = .ok (.int 1) u ∧
      eval (call 1) [0] form' (heldThrice (.bool true)) = .ok (.bool true) u' ∧
      lookup u "b" [0] = .ok (.int 0) ∧
      (Spot.item (.list 0) (.int 0)).read [0] u' = .ok (.int 0) u') := by
  constructor
  · have hheld : lookup (heldThrice (.int 7)) (bind [] "b") [0] = .ok (.int 7) := rfl
    have hheld' : Holds (call 1) [0] [] (heldThrice (.int 7)) fieldOfObject (.attr (.object 0) "x")
        (.int 7) (heldThrice (.int 7)) := ⟨_, rfl, rfl, rfl⟩
    have hform : expr [] 0 (.stepAfter .increment (.name "b")) = .ok _ := rfl
    have hform' : expr [] 0 (.stepAfter .increment fieldOfObject) = .ok _ := rfl
    obtain ⟨u, u', ⟨hu, -, hl⟩, ⟨hu', -, hr⟩, -⟩ :=
      stepAfter_eq_iff (call 1) (call 1) rfl hform hheld hform' nofun hheld'
    exact ⟨_, _, u, u', hform, hform', hu, hu', hl, hr⟩
  · have hheld : lookup (heldThrice (.bool true)) (bind [] "b") [0] = .ok (.bool true) := rfl
    have hheld' : Holds (call 1) [0] [] (heldThrice (.bool true)) firstElement
        (.item (.list 0) (.int 0)) (.bool true) (heldThrice (.bool true)) := ⟨_, rfl, rfl, rfl⟩
    have hform : expr [] 0 (.stepAfter .decrement (.name "b")) = .ok _ := rfl
    have hform' : expr [] 0 (.stepAfter .decrement firstElement) = .ok _ := rfl
    obtain ⟨u, u', ⟨hu, -, hl⟩, ⟨hu', -, hr⟩, -⟩ :=
      stepAfter_eq_iff (call 1) (call 1) rfl hform hheld hform' nofun hheld'
    exact ⟨_, _, u, u', hform, hform', hu, hu', hl, hr⟩

end ConsoleCpp.Generate
