/-
Division of integers. The sizes are divided like natural numbers and a sign is put to the quotient;
the remainder is what the quotient leaves. Together they are the quotient and the remainder of C.
Every way to write a division comes to these two: between operands, and as a compound assignment to a
variable, an element or a field, each of them as a value and in the place of a statement.
-/
import ConsoleCpp.Proofs.Stores.Stepped
import Mathlib.Algebra.Ring.Int.Defs

namespace ConsoleCpp.Machine

/-! ## Quotients and remainders -/

/-- The quotient and the remainder of a division that rounds towards zero. -/
structure Truncated (a b q r : Int) : Prop where
  whole : a = b * q + r
  small : r.natAbs < b.natAbs
  sign : r = 0 ∨ r.sign = a.sign

section

variable {a b : Int}

/-- What a quotient leaves of the dividend, where the product with the divisor has the sign of the
dividend and a size that falls short of it by less than the divisor. -/
theorem truncated_of {size rest : Nat} {q : Int} (hsize : a.natAbs = b.natAbs * size + rest)
    (hrest : rest < b.natAbs)
    (hq : b * q = if a < 0 then -((b.natAbs * size : Nat) : Int) else (b.natAbs * size : Nat)) :
    Truncated a b q (a - b * q) := by
  generalize b.natAbs * size = product at hsize hq
  have hr : a - b * q = if a < 0 then -(rest : Int) else rest := by
    split at hq <;> omega
  refine ⟨by omega, by split at hr <;> omega, ?_⟩
  by_cases hzero : rest = 0
  · left
    split at hr <;> omega
  · right
    split at hr
    · rw [hr, Int.sign_eq_neg_one_of_neg (by omega), Int.sign_eq_neg_one_of_neg (by omega)]
    · rw [hr, Int.sign_eq_one_of_pos (by omega), Int.sign_eq_one_of_pos (by omega)]

/-- A quotient that is negative where one of the two numbers is has a product with the sign of the
dividend. -/
theorem mul_signed (size : Nat) (hb : b ≠ 0) :
    b * (if decide (a < 0) == decide (b < 0) then (size : Int) else -size) =
      if a < 0 then -((b.natAbs * size : Nat) : Int) else (b.natAbs * size : Nat) := by
  rcases Int.natAbs_eq b with h | h
  · have hpos : ¬ b < 0 := by omega
    rw [Int.natCast_mul, ← h]
    by_cases ha : a < 0 <;> simp [ha, hpos]
  · have hneg : b < 0 := by omega
    have habs : (b.natAbs : Int) = -b := by omega
    rw [Int.natCast_mul, habs]
    by_cases ha : a < 0 <;> simp [ha, hneg]

theorem intQuotient_ok (hb : b ≠ 0) :
    ∃ q, intQuotient a b = .ok q ∧ Truncated a b q (a - b * q) := by
  refine ⟨_, if_neg (by simpa using hb), ?_⟩
  exact truncated_of (Nat.div_add_mod a.natAbs b.natAbs).symm
    (Nat.mod_lt _ (Int.natAbs_pos.2 hb)) (mul_signed _ hb)

theorem intQuotient_zero (a : Int) : intQuotient a 0 = .error .integerDivision := rfl

end

/-! ## Division of values -/

section

variable {v w : Value} {a b : Int}

theorem num?_of_int? (hv : v.int? = some a) : v.num? = some (.int a) := by
  cases v with
  | int _ | bool _ =>
    cases hv
    rfl
  | _ => cases hv

theorem divide_of_int? (hv : v.int? = some a) (hw : w.int? = some b) :
    divide v w = (intQuotient a b).map .int := by
  rw [divide, num?_of_int? hv, num?_of_int? hw]
  show (intQuotient a b >>= _) = _
  cases intQuotient a b <;> rfl

theorem remainder_of_int? (hv : v.int? = some a) (hw : w.int? = some b) :
    remainder v w = (intQuotient a b).map fun q => .int (a - b * q) := by
  rw [remainder, hv, hw]
  show (intQuotient a b >>= _) >>= _ = _
  cases intQuotient a b <;> rfl

end

/-! ## Writing a result -/

section

variable {env : List Nat} {spot : Spot} {v w : Value} {n : Int} {op : ArithOp}
  {result : Except Fault Value} {s : State}

/-- Writes the result of an operation and gives it back. -/
def keep (env : List Nat) (spot : Spot) (result : Except Fault Value) : Run Value := do
  let new ← orFault result
  spot.write env new
  return new

/-- An update that reads its spot again gives back what it has written. -/
theorem update_new (hr : spot.read env s = .ok v s)
    (ha : ∀ s, arith op v w s = orFault result s) :
    (do
      let old ← spot.read env
      let new ← arith op old w
      spot.write env new
      spot.read env) s = keep env spot result s := by
  rw [bind_of_ok hr, keep]
  cases result with
  | error f =>
    rw [bind_of_error (ha s)]
    rfl
  | ok new =>
    rw [bind_of_ok (ha s)]
    show (spot.write env new >>= _) s = (spot.write env new >>= _) s
    rcases Spot.write_cases env spot new s with ⟨t, hw⟩ | ⟨f, hw⟩
    · rw [bind_of_ok hw, bind_of_ok hw]
      exact Spot.read_written hr hw
    · rw [bind_of_error hw, bind_of_error hw]

/-- An integer that is written to a spot that holds one is there. -/
theorem keep_ok (hv : v.int? = some n) (hr : spot.read env s = .ok v s) (new : Value) :
    ∃ t, spot.write env new s = .ok () t ∧ spot.read env t = .ok new t ∧
      keep env spot (.ok new) s = .ok new t := by
  obtain ⟨t, hw⟩ := Spot.write_of_read hv hr new
  refine ⟨t, hw, Spot.read_written hr hw, ?_⟩
  show (spot.write env new >>= _) s = _
  rw [bind_of_ok hw]
  rfl

end

end ConsoleCpp.Machine

namespace ConsoleCpp.Generate

open Machine

/-! ## Forms of a division -/

section

variable {call : Caller} {env : List Nat} {renames : Renames} {depth d : Nat} {target value : Expr}
  {spot : Spot} {v w : Value} {op : ArithOp} {result : Except Fault Value}
  {form operand : Target.Expr} {s t u : State}

/-- A number literal has no fields. -/
theorem getAttr_literalNumber (s : State) (digits field : String) :
    ∃ f, getAttr s (literalNumber digits) field = .error f := by
  have hint : ∀ n : Int, ∃ f, getAttr s (.int n) field = .error f := fun n => by
    unfold getAttr
    split <;> exact ⟨_, rfl⟩
  unfold literalNumber
  split
  · unfold getAttr
    split <;> exact ⟨_, rfl⟩
  · split
    · exact hint _
    · exact hint 0

/-- A field that can be read is no field of a number, so the point before it belongs to no number. -/
theorem eval_dot {owner : Target.Expr} {field : String}
    (h : eval call env (.attr owner field) s = .ok v t) :
    eval call env (owner.dot field) s = .ok v t := by
  cases owner with
  | number whole =>
    simp only [eval, pure_bind] at h
    obtain ⟨f, hf⟩ := getAttr_literalNumber s whole field
    change orFault (getAttr s (literalNumber whole) field) s = .ok v t at h
    rw [hf] at h
    cases h
  | _ => exact h

/-- What a place holds is what it is worth as an operand. -/
theorem eval_held (hheld : Holds call env renames s target spot v t)
    (h : expr renames depth target = .ok form) : eval call env form s = .ok v t := by
  cases target with
  | name id =>
    obtain ⟨rfl, rfl, hl⟩ := holds_name hheld
    rw [expr] at h
    obtain ⟨_, -, h⟩ := bind_ok h
    cases h
    simp only [eval]
    exact Spot.read_name_iff.2 hl
  | index owner key =>
    obtain ⟨o, k, vo, vk, _, ho, hk, hvo, hvk, rfl, hr⟩ := holds_index hheld
    rw [expr] at h
    obtain ⟨_, -, h⟩ := bind_ok h
    obtain ⟨o', ho', h⟩ := bind_ok h
    obtain ⟨k', hk', h⟩ := bind_ok h
    -- what is generated does not depend on how deep it stands
    obtain rfl := expr_depth owner _ _ _ _ ho ho'
    obtain rfl := expr_depth key _ _ _ _ hk hk'
    cases h
    simp only [eval]
    rw [bind_of_ok hvo, bind_of_ok hvk]
    exact hr
  | member _ owner field =>
    obtain ⟨o, vo, ho, hvo, rfl, hr⟩ := holds_member hheld
    rw [expr] at h
    obtain ⟨_, -, h⟩ := bind_ok h
    obtain ⟨o', ho', h⟩ := bind_ok h
    obtain rfl := expr_depth owner _ _ _ _ ho ho'
    cases h
    refine eval_dot ?_
    simp only [eval]
    rw [bind_of_ok hvo]
    exact hr
  | _ => cases isAssignable_of_holds hheld

theorem eval_arith (op : ArithOp) (left right : Target.Expr) :
    eval call env (.binary op.toBinary left right) = (do
      let a ← eval call env left
      let b ← eval call env right
      arith op a b) := by
  cases op <;> simp only [ArithOp.toBinary, eval, binary]

theorem eval_between (hheld : Holds call env renames s target spot v t)
    (hvalue : expr renames d value = .ok operand) (hw : eval call env operand t = .ok w u)
    (h : expr renames depth (.binary op.toBinary target value) = .ok form) :
    eval call env form s = arith op v w u := by
  rw [expr] at h
  obtain ⟨_, -, h⟩ := bind_ok h
  obtain ⟨left, hleft, h⟩ := bind_ok h
  obtain ⟨right, hright, h⟩ := bind_ok h
  cases h
  obtain rfl := expr_depth value _ _ _ _ hvalue hright
  rw [eval_arith, bind_of_ok (eval_held hheld hleft), bind_of_ok hw]

/-- A variable that is combined with a value is read first and stored to last. -/
theorem eval_rebind {id : String} (hl : lookup s id env = .ok v)
    (hw : eval call env operand s = .ok w u) (ha : ∀ s, arith op v w s = orFault result s) :
    eval call env (.bind id (.binary op.toBinary (.name id) operand)) s =
      keep env (.name id) result u := by
  have hr : eval call env (.name id) s = .ok v s := by
    simp only [eval]
    exact Spot.read_name_iff.2 hl
  have hvalue : eval call env (.binary op.toBinary (.name id) operand) s = orFault result u := by
    rw [eval_arith, bind_of_ok hr, bind_of_ok hw, ha]
  rw [eval_bind, keep]
  cases result with
  | error f =>
    rw [bind_of_error hvalue]
    rfl
  | ok new =>
    rw [bind_of_ok hvalue]
    rfl

theorem eval_compound (hheld : Holds call env renames s target spot v t)
    (hvalue : expr renames d value = .ok operand) (hw : eval call env operand t = .ok w u)
    (hstill : spot.read env u = .ok v u) (ha : ∀ s, arith op v w s = orFault result s)
    (h : expr renames depth (.assign (.update op) target value) = .ok form) :
    eval call env form s = keep env spot result u := by
  rw [expr] at h
  obtain ⟨_, -, h⟩ := bind_ok h
  obtain ⟨operand', hvalue', h⟩ := bind_ok h
  obtain rfl := expr_depth value _ _ _ _ hvalue hvalue'
  cases target with
  | name id =>
    obtain ⟨rfl, rfl, hl⟩ := holds_name hheld
    rw [store] at h
    cases h
    exact eval_rebind hl hw ha
  | index owner key =>
    obtain ⟨o, k, vo, vk, _, ho, hk, hvo, hvk, rfl, -⟩ := holds_index hheld
    rw [store] at h
    obtain ⟨o', ho', h⟩ := bind_ok h
    obtain ⟨k', hk', h⟩ := bind_ok h
    obtain rfl := expr_depth owner _ _ _ _ ho ho'
    obtain rfl := expr_depth key _ _ _ _ hk hk'
    cases h
    simp only [eval]
    rw [bind_of_ok hvo, bind_of_ok hvk, bind_of_ok hw]
    exact update_new hstill ha
  | member _ owner field =>
    obtain ⟨o, vo, ho, hvo, rfl, -⟩ := holds_member hheld
    rw [store] at h
    obtain ⟨o', ho', h⟩ := bind_ok h
    obtain rfl := expr_depth owner _ _ _ _ ho ho'
    cases h
    simp only [eval]
    rw [bind_of_ok hvo, bind_of_ok hw]
    exact update_new hstill ha
  | _ => cases isAssignable_of_holds hheld

end

/-! ## Values and statements -/

/-- From the state `s`, an expression runs like `x` from the state `u`: as a value it is worth what `x`
gives, and in the place of a statement that is dropped. -/
structure RunsLike (call : Caller) (env : List Nat) (renames : Renames) (s : State) (e : Expr)
    (x : Run Value) (u : State) : Prop where
  value : ∀ {depth form}, expr renames depth e = .ok form → eval call env form s = x u
  line : ∀ {rounds path line}, expressionStatement renames e = .ok line →
    exec call rounds path env line s = (x >>= fun _ => pure .next) u

section

variable {call : Caller} {env : List Nat} {renames : Renames} {e : Expr} {x y : Run Value}
  {s t u : State}

theorem runsLike_congr (h : RunsLike call env renames s e x t) (hxy : x t = y u) :
    RunsLike call env renames s e y u := by
  refine ⟨fun hf => (h.value hf).trans hxy, fun hl => (h.line hl).trans ?_⟩
  show EStateM.bind x _ t = EStateM.bind y _ u
  unfold EStateM.bind
  rw [hxy]

theorem exec_eval_next (rounds : Nat) (path : String) {form : Target.Expr}
    (h : eval call env form s = x u) :
    exec call rounds path env (.eval form) s = (x >>= fun _ => pure .next) u := by
  rw [exec_eval]
  show EStateM.bind (eval call env form) _ s = EStateM.bind x _ u
  unfold EStateM.bind
  rw [h]

end

section

variable {call : Caller} {env : List Nat} {renames : Renames} {d : Nat} {target value : Expr}
  {spot : Spot} {v w : Value} {op : ArithOp} {result : Except Fault Value} {operand : Target.Expr}
  {s t u : State}

theorem runsLike_between (hheld : Holds call env renames s target spot v t)
    (hvalue : expr renames d value = .ok operand) (hw : eval call env operand t = .ok w u) :
    RunsLike call env renames s (.binary op.toBinary target value) (arith op v w) u := by
  refine ⟨eval_between hheld hvalue hw, fun hl => ?_⟩
  cases lineOf hl with
  | value hf => exact exec_eval_next _ _ (eval_between hheld hvalue hw hf)

theorem runsLike_compound (ho : op = .div ∨ op = .mod) (hheld : Holds call env renames s target spot v t)
    (hvalue : expr renames d value = .ok operand) (hw : eval call env operand t = .ok w u)
    (hstill : spot.read env u = .ok v u) (ha : ∀ s, arith op v w s = orFault result s) :
    RunsLike call env renames s (.assign (.update op) target value) (keep env spot result) u := by
  refine ⟨eval_compound hheld hvalue hw hstill ha, fun {rounds path _} hl => ?_⟩
  cases lineOf hl with
  | assign hd hm =>
    -- quotients and remainders are written out as assignments, never as augmented ones
    rcases ho with rfl | rfl
    · exact absurd rfl hd
    · exact absurd rfl hm
  | divide _ hv =>
    obtain ⟨rfl, rfl, hheld⟩ := holds_name hheld
    obtain rfl := expr_depth value _ _ _ _ hvalue hv
    rw [← exec_eval_next rounds path (eval_rebind hheld hw ha), exec_eval, eval_bind, exec,
      execAssign]
    simp only [bind_assoc, pure_bind]
  | value hf => exact exec_eval_next _ _ (eval_compound hheld hvalue hw hstill ha hf)

end

/-- Division of integers, where truth values count as 0 and 1. A place holds the number `a`, and a
value is worth the number `b` and leaves in the place what it holds. Where `b` is not zero there are
a quotient and a remainder, rounded towards zero, that all divisions give: those of the two values,
and those of the place by the value, as values and in the place of statements. As compound
assignments they write what they give to the place. Where `b` is zero, all of them fault. -/
theorem division_of_integers (call : Caller) {env : List Nat} {renames : Renames} {depth : Nat}
    {target value : Expr} {spot : Spot} {operand : Target.Expr} {v w : Value} {a b : Int}
    {s t u : State} (hv : v.int? = some a) (hw : w.int? = some b)
    (hheld : Holds call env renames s target spot v t)
    (hvalue : expr renames depth value = .ok operand) (heval : eval call env operand t = .ok w u)
    (hstill : spot.read env u = .ok v u) :
    (b ≠ 0 → ∃ q r, Truncated a b q r ∧ divide v w = .ok (.int q) ∧ remainder v w = .ok (.int r) ∧
      ∀ op n, (op, n) ∈ [(ArithOp.div, q), (ArithOp.mod, r)] →
        RunsLike call env renames s (.binary op.toBinary target value) (pure (.int n)) u ∧
        ∃ u', spot.write env (.int n) u = .ok () u' ∧ spot.read env u' = .ok (.int n) u' ∧
          RunsLike call env renames s (.assign (.update op) target value) (pure (.int n)) u') ∧
    (b = 0 → ∃ f : Fault, f.className = "ZeroDivisionError" ∧ divide v w = .error f ∧
      remainder v w = .error f ∧ ∀ op ∈ [ArithOp.div, ArithOp.mod],
        RunsLike call env renames s (.binary op.toBinary target value) (fault f) u ∧
        RunsLike call env renames s (.assign (.update op) target value) (fault f) u) := by
  have hforms {op : ArithOp} {result : Except Fault Value} (ho : op = .div ∨ op = .mod)
      (ha : ∀ s, arith op v w s = orFault result s) :
      RunsLike call env renames s (.binary op.toBinary target value) (orFault result) u ∧
        RunsLike call env renames s (.assign (.update op) target value) (keep env spot result) u :=
    ⟨runsLike_congr (runsLike_between hheld hvalue heval) (ha u),
      runsLike_compound ho hheld hvalue heval hstill ha⟩
  have hdiv := divide_of_int? hv hw
  have hmod := remainder_of_int? hv hw
  constructor
  · intro hb
    obtain ⟨q, hq, htruncated⟩ := intQuotient_ok (a := a) hb
    rw [hq] at hdiv hmod
    refine ⟨q, _, htruncated, hdiv, hmod, fun op n hn => ?_⟩
    obtain ⟨ho, ha⟩ : (op = .div ∨ op = .mod) ∧
        ∀ s, arith op v w s = orFault (.ok (.int n)) s := by
      simp only [List.mem_cons, Prod.mk.injEq, List.not_mem_nil, or_false] at hn
      rcases hn with ⟨rfl, rfl⟩ | ⟨rfl, rfl⟩
      · exact ⟨.inl rfl, fun s => congrArg (orFault · s) hdiv⟩
      · exact ⟨.inr rfl, fun s => congrArg (orFault · s) hmod⟩
    obtain ⟨hbetween, hcompound⟩ := hforms ho ha
    obtain ⟨u', hwrite, hread, hkeep⟩ := keep_ok hv hstill (.int n)
    exact ⟨hbetween, u', hwrite, hread, runsLike_congr hcompound hkeep⟩
  · rintro rfl
    rw [intQuotient_zero] at hdiv hmod
    refine ⟨.integerDivision, rfl, hdiv, hmod, fun op hop => ?_⟩
    have ho : op = .div ∨ op = .mod := by simpa using hop
    have ha : ∀ s, arith op v w s = orFault (.error .integerDivision) s := by
      rcases ho with rfl | rfl
      · exact fun s => congrArg (orFault · s) hdiv
      · exact fun s => congrArg (orFault · s) hmod
    obtain ⟨hbetween, hcompound⟩ := hforms ho ha
    exact ⟨hbetween, runsLike_congr hcompound rfl⟩

/-- From -7, `a[0] / 2` is worth -3, and `p.x %= 2;` leaves -1 in the field. With `b` true, `b /= 0;`
and `b % 0` fault. -/
theorem division_of_integers_heldThrice :
    (∃ form, expr [] 0 (.binary .div firstElement (.number "2")) = .ok form ∧
      eval (call 1) [0] form (heldThrice (.int (-7))) = .ok (.int (-3)) (heldThrice (.int (-7)))) ∧
    (∃ line u, expressionStatement [] (.assign (.update .mod) fieldOfObject (.number "2")) = .ok line ∧
      exec (call 1) 1 "" [0] line (heldThrice (.int (-7))) = .ok .next u ∧
      (Spot.attr (.object 0) "x").read [0] u = .ok (.int (-1)) u) ∧
    (∃ line form f, f.className = "ZeroDivisionError" ∧
      expressionStatement [] (.assign (.update .div) (.name "b") (.number "0")) = .ok line ∧
      exec (call 1) 1 "" [0] line (heldThrice (.bool true)) =
        .error (.fault f) (heldThrice (.bool true)) ∧
      expr [] 0 (.binary .mod (.name "b") (.number "0")) = .ok form ∧
      eval (call 1) [0] form (heldThrice (.bool true)) =
        .error (.fault f) (heldThrice (.bool true))) := by
  have htwo : expr [] 0 (.number "2") = .ok _ := rfl
  have hzero : expr [] 0 (.number "0") = .ok _ := rfl
  refine ⟨?_, ?_, ?_⟩
  · have hheld : Holds (call 1) [0] [] (heldThrice (.int (-7))) firstElement
        (.item (.list 0) (.int 0)) (.int (-7)) (heldThrice (.int (-7))) := ⟨_, rfl, rfl, rfl⟩
    have hform : expr [] 0 (.binary .div firstElement (.number "2")) = .ok _ := rfl
    obtain ⟨q, r, -, hq, -, hall⟩ :=
      (division_of_integers (call 1) (w := .int 2) rfl rfl hheld htwo rfl rfl).1 (by decide)
    cases hq
    obtain ⟨hbetween, -⟩ := hall .div (-3) List.mem_cons_self
    exact ⟨_, hform, hbetween.value hform⟩
  · have hheld : Holds (call 1) [0] [] (heldThrice (.int (-7))) fieldOfObject
        (.attr (.object 0) "x") (.int (-7)) (heldThrice (.int (-7))) := ⟨_, rfl, rfl, rfl⟩
    have hline : expressionStatement []
      (.assign (.update .mod) fieldOfObject (.number "2")) = .ok _ := rfl
    obtain ⟨q, r, -, -, hr, hall⟩ :=
      (division_of_integers (call 1) (w := .int 2) rfl rfl hheld htwo rfl rfl).1 (by decide)
    cases hr
    obtain ⟨-, u, -, hread, hcompound⟩ := hall .mod (-1) (.tail _ List.mem_cons_self)
    exact ⟨_, u, hline, hcompound.line hline, hread⟩
  · have hheld : Holds (call 1) [0] [] (heldThrice (.bool true)) (.name "b") (.name "b")
        (.bool true) (heldThrice (.bool true)) := ⟨_, rfl, rfl, rfl⟩
    have hline : expressionStatement []
      (.assign (.update .div) (.name "b") (.number "0")) = .ok _ := rfl
    have hform : expr [] 0 (.binary .mod (.name "b") (.number "0")) = .ok _ := rfl
    obtain ⟨f, hclass, -, -, hall⟩ :=
      (division_of_integers (call 1) (w := .int 0) rfl rfl hheld hzero rfl rfl).2 rfl
    obtain ⟨-, hdivide⟩ := hall .div (by simp)
    obtain ⟨hremain, -⟩ := hall .mod (by simp)
    exact ⟨_, _, f, hclass, hline, hdivide.line hline, hform, hremain.value hform⟩

end ConsoleCpp.Generate
