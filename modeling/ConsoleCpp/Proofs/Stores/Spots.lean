/-
Stores by the order in which they take their operands. A place is first located, which computes its
parts; a spot that has been located is read and written. An assignment computes its value before or
after it locates its place, and a compound assignment reads its place before or after it computes
its value. Running a line and evaluating an expression that store to the same place are two of these
orders, and the main lemmas say which.
-/
import ConsoleCpp.Proofs.Machine.Effects

namespace ConsoleCpp.Machine

/-! ## Spots -/

/-- A place whose parts have been computed. -/
inductive Spot where
  | name (id : String)
  | attr (owner : Value) (field : String)
  | item (owner key : Value)

namespace Spot

def read (env : List Nat) : Spot → Run Value
  | .name id => do orFault (lookup (← get) id env)
  | .attr owner field => do orFault (getAttr (← get) owner field)
  | .item owner key => do orFault (getItem (← get) owner key)

def write (env : List Nat) : Spot → Value → Run Unit
  | .name id, v => assign env id v
  | .attr owner field, v => setAttr owner field v
  | .item owner key, v => setItem owner key v

variable {env : List Nat} {spot : Spot} {v old : Value} {r s t : State}

theorem steady_orFault {r : Except Fault Value} : Steady (orFault r) s := by
  cases r with
  | ok v => exact .inl ⟨v, rfl⟩
  | error f => exact .inr ⟨f, rfl⟩

theorem steady_read (env : List Nat) (spot : Spot) (s : State) : Steady (spot.read env) s := by
  cases spot with
  | name id => exact steady_orFault
  | attr owner field => exact steady_orFault
  | item owner key => exact steady_orFault

theorem read_ok (h : spot.read env s = .ok v t) : t = s := by
  rcases steady_read env spot s with ⟨w, hw⟩ | ⟨f, hf⟩
  · rw [hw] at h
    cases h
    rfl
  · rw [hf] at h
    cases h

theorem write_lists_size (h : spot.write env v s = .ok () t) : t.lists.size = s.lists.size := by
  cases spot with
  | name id =>
    obtain ⟨frame, -, rfl⟩ := assign_ok h
    rfl
  | attr owner field =>
    obtain ⟨ref, -, rfl⟩ := setAttr_ok h
    rfl
  | item owner key =>
    obtain ⟨ref, i, -, rfl⟩ := setItem_ok h
    exact Array.size_modify

/-- A write finishes, or it faults and changes nothing. -/
theorem write_cases (env : List Nat) (spot : Spot) (v : Value) (s : State) :
    (∃ t, spot.write env v s = .ok () t) ∨ ∃ f, spot.write env v s = .error (.fault f) s := by
  cases spot with
  | name id =>
    cases hf : frameOf? s id env with
    | some frame => exact .inl ⟨_, assign_of_frame hf v⟩
    | none => exact .inr ⟨_, assign_of_none hf v⟩
  | attr owner field =>
    have hw : write env (.attr owner field) v s = (orFault (attrCell owner field) >>=
        fun ref => changeObject ref (withField · field v)) s := rfl
    rw [hw]
    cases attrCell owner field with
    | ok ref => exact .inl ⟨_, rfl⟩
    | error f => exact .inr ⟨f, rfl⟩
  | item owner key =>
    have hw : write env (.item owner key) v s = (orFault (itemCell s owner key) >>=
        fun cell => changeList cell.1 (·.setIfInBounds cell.2 v)) s := rfl
    rw [hw]
    cases itemCell s owner key with
    | ok cell => exact .inl ⟨_, rfl⟩
    | error f => exact .inr ⟨f, rfl⟩

/-- Elements of texts and methods aside, a spot that is no variable, could be read once and cannot be
written cannot be read either. -/
theorem read_of_write_error {e : Stop} (hn : ∀ id, spot ≠ .name id) (ht : ∀ text, old ≠ .text text)
    (hm : ∀ m, old ≠ .method m) (hr : spot.read env r = .ok old r)
    (h : spot.write env v s = .error e t) : ∃ f, spot.read env s = .error (.fault f) s := by
  cases spot with
  | name id => exact absurd rfl (hn id)
  | attr owner field =>
    change orFault (getAttr r owner field) r = .ok old r at hr
    change (orFault (attrCell owner field) >>= _) s = .error e t at h
    cases ho : getAttr r owner field with
    | error f => rw [ho] at hr; cases hr
    | ok w =>
      rw [ho] at hr
      cases hr
      rcases attrCell_of_getAttr ho with ⟨ref, hc⟩ | ⟨m, rfl⟩
      · -- the fields of an object or of a function can be written at any time
        rw [hc] at h
        cases h
      · exact absurd rfl (hm m)
  | item owner key =>
    change orFault (getItem r owner key) r = .ok old r at hr
    change (orFault (itemCell s owner key) >>= _) s = .error e t at h
    cases ho : getItem r owner key with
    | error f => rw [ho] at hr; cases hr
    | ok w =>
      rw [ho] at hr
      cases hr
      rcases getItem_ok ho with ⟨l, rfl⟩ | ⟨text, rfl⟩
      · cases hc : itemCell s (.list l) key with
        | ok cell => rw [hc] at h; cases h
        | error f =>
          obtain ⟨g, hg⟩ := getItem_of_itemCell_error hc
          refine ⟨g, ?_⟩
          show orFault (getItem s (.list l) key) s = .error (.fault g) s
          rw [hg]
          rfl
      · exact absurd rfl (ht text)

/-- A spot that is no variable and was there to be read gives back what is written to it. -/
theorem read_write (hn : ∀ id, spot ≠ .name id) (hr : spot.read env r = .ok old r)
    (hs : s.objects = r.objects) (h : spot.write env v s = .ok () t) :
    spot.read env t = .ok v t := by
  cases spot with
  | name id => exact absurd rfl (hn id)
  | attr owner field =>
    change orFault (getAttr r owner field) r = .ok old r at hr
    cases ho : getAttr r owner field with
    | error f => rw [ho] at hr; cases hr
    | ok w =>
      show orFault (getAttr t owner field) t = .ok v t
      rw [getAttr_setAttr ho hs h]
      rfl
  | item owner key =>
    show orFault (getItem t owner key) t = .ok v t
    rw [getItem_setItem h]
    rfl

theorem read_name_iff {id : String} :
    (name id).read env s = .ok v s ↔ lookup s id env = .ok v := by
  change orFault (lookup s id env) s = .ok v s ↔ lookup s id env = .ok v
  cases lookup s id env with
  | ok w => exact ⟨fun h => by cases h; rfl, fun h => by cases h; rfl⟩
  | error f => exact ⟨nofun, nofun⟩

theorem read_written (hr : spot.read env s = .ok old s) (h : spot.write env v s = .ok () t) :
    spot.read env t = .ok v t := by
  by_cases hn : ∃ id, spot = .name id
  · obtain ⟨id, rfl⟩ := hn
    exact read_name_iff.2 (lookup_assign h)
  · exact read_write (fun id h => hn ⟨id, h⟩) hr rfl h

/-- A spot that holds a number can be written. -/
theorem write_of_read {n : Int} (hv : old.int? = some n) (hr : spot.read env s = .ok old s)
    (v : Value) : ∃ t, spot.write env v s = .ok () t := by
  rcases write_cases env spot v s with h | ⟨f, hf⟩
  · exact h
  · by_cases hn : ∃ id, spot = .name id
    · -- what is found without a frame that has it is no number
      obtain ⟨id, rfl⟩ := hn
      rcases freeVariable_ok_iff.1 (lookup_ok_iff.1 (read_name_iff.1 hr)) with
        ⟨frame, hframe, -⟩ | ⟨-, b, -, rfl⟩
      · exact ⟨_, assign_of_frame hframe v⟩
      · cases hv
    · obtain ⟨g, hg⟩ := read_of_write_error (fun id h => hn ⟨id, h⟩)
        (by rintro text rfl; cases hv) (by rintro m rfl; cases hv) hr hf
      rw [hr] at hg
      cases hg

end Spot

/-! ## Orders -/

section

variable (call : Caller) (env : List Nat)

/-- Computes the parts of a place. -/
def locate : Target.Place → Run Spot
  | .name id => pure (.name id)
  | .attr owner field => do return .attr (← eval call env owner) field
  | .item owner key => do
    let o ← eval call env owner
    let k ← eval call env key
    return .item o k

/-- An assignment that computes its value first. -/
def valueFirst (place : Target.Place) (value : Target.Expr) : Run Unit := do
  let v ← eval call env value
  let spot ← locate call env place
  spot.write env v

/-- An assignment that locates its place first. -/
def placeFirst (place : Target.Place) (value : Target.Expr) : Run Unit := do
  let spot ← locate call env place
  let v ← eval call env value
  spot.write env v

/-- The spot, its old value and the new operand of a compound assignment that reads its place before
it computes its operand. -/
def early (place : Target.Place) (value : Target.Expr) : Run (Spot × Value × Value) := do
  let spot ← locate call env place
  let old ← spot.read env
  let v ← eval call env value
  return (spot, old, v)

/-- The same, with the place read last. -/
def late (place : Target.Place) (value : Target.Expr) : Run (Spot × Value × Value) := do
  let spot ← locate call env place
  let v ← eval call env value
  let old ← spot.read env
  return (spot, old, v)

/-- Combines the old value of a spot with an operand and writes the result. -/
def amend (combine : Value → Value → Run Value) : Spot × Value × Value → Run Unit
  | (spot, old, v) => combine old v >>= spot.write env

end

section

variable {call : Caller} {env : List Nat} {place : Target.Place} {value : Target.Expr}
  {spot : Spot} {old v : Value} {s t : State}

theorem early_ok (h : early call env place value s = .ok (spot, old, v) t) :
    ∃ u, locate call env place s = .ok spot u ∧ spot.read env u = .ok old u ∧
      eval call env value u = .ok v t := by
  obtain ⟨_, u, hl, h⟩ := run_bind_ok h
  obtain ⟨_, w, hr, h⟩ := run_bind_ok h
  obtain ⟨_, _, hv, h⟩ := run_bind_ok h
  cases h
  obtain rfl := Spot.read_ok hr
  exact ⟨w, hl, hr, hv⟩

/-- Where the old value is read late, the spot, the operand and the state are the same still. -/
theorem ends_late_of_early {β : Type} (h : early call env place value s = .ok (spot, old, v) t)
    (next : Spot × Value × Value → Run β) :
    ends (late call env place value >>= next) s =
      ends (spot.read env >>= fun old => next (spot, old, v)) t := by
  -- reading changes nothing, so the operand is computed from the same state in both
  obtain ⟨u, hl, -, hv⟩ := early_ok h
  simp only [late, bind_assoc, pure_bind]
  rw [ends_bind_of_ok hl, ends_bind_of_ok hv]

theorem locate_name {id : String} (h : locate call env place s = .ok (.name id) t) :
    place = .name id := by
  cases place with
  | name _ => cases h; rfl
  | attr owner field =>
    obtain ⟨_, _, -, h⟩ := run_bind_ok h
    cases h
  | item owner key =>
    obtain ⟨_, _, -, h⟩ := run_bind_ok h
    obtain ⟨_, _, -, h⟩ := run_bind_ok h
    cases h

theorem early_ne_name (hn : ∀ id, place ≠ .name id)
    (h : early call env place value s = .ok (spot, old, v) t) (id : String) : spot ≠ .name id := by
  rintro rfl
  obtain ⟨_, hl, -⟩ := early_ok h
  exact hn id (locate_name hl)

end

/-! ## The order of a line -/

section

variable (call : Caller) (rounds : Nat) (path : String) (env : List Nat) (s : State)

theorem ends_exec_assign (place : Target.Place) (value : Target.Expr) :
    ends (exec call rounds path env (.assign place value)) s =
      ends (valueFirst call env place value) s := by
  have h : exec call rounds path env (.assign place value) =
      (valueFirst call env place value >>= fun _ => pure .next) := by
    cases place <;>
      simp only [exec, execAssign, valueFirst, locate, Spot.write, bind_assoc, pure_bind]
  rw [h, ends_bind_pure]

theorem ends_exec_augment (place : Target.Place) (op : ArithOp) (value : Target.Expr) :
    ends (exec call rounds path env (.augment place op value)) s =
      ends (early call env place value >>= amend env (inPlace op)) s := by
  have h : exec call rounds path env (.augment place op value) =
      (early call env place value >>= amend env (inPlace op)) >>= fun _ => pure .next := by
    cases place <;>
      simp only [exec, execAugment, early, amend, locate, Spot.read, Spot.write, bind_assoc,
        pure_bind]
  rw [h, ends_bind_pure]

theorem ends_exec_eval (e : Target.Expr) :
    ends (exec call rounds path env (.eval e)) s = ends (eval call env e) s := by
  rw [exec_eval, ends_bind_pure]

/-! ## The order of an expression -/

theorem ends_eval_bind (id : String) (value : Target.Expr) :
    ends (eval call env (.bind id value)) s = ends (placeFirst call env (.name id) value) s := by
  simp only [eval_bind, placeFirst, locate, Spot.write, pure_bind]
  exact ends_bind_congr fun v t _ => ends_bind_pure _ v t

theorem ends_eval_store (owner key value : Target.Expr) :
    ends (eval call env (.store owner key value)) s =
      ends (placeFirst call env (.item owner key) value) s := by
  simp only [eval, placeFirst, locate, Spot.write, bind_assoc, pure_bind]
  exact ends_bind_congr fun o _ _ => ends_bind_congr fun k _ _ => ends_bind_congr fun v t _ =>
    ends_bind_pure (setItem o k v) v t

theorem ends_eval_storeAttr (owner : Target.Expr) (field : String) (value : Target.Expr) :
    ends (eval call env (.storeAttr owner field value)) s =
      ends (placeFirst call env (.attr owner field) value) s := by
  simp only [eval, placeFirst, locate, Spot.write, bind_assoc, pure_bind]
  exact ends_bind_congr fun o _ _ => ends_bind_congr fun v t _ =>
    ends_bind_pure (setAttr o field v) v t

/-- A variable that is combined with a value is read before the value is computed. -/
theorem ends_eval_rebind (id : String) (op : ArithOp) (value : Target.Expr) :
    ends (eval call env (.bind id (.binary op.toBinary (.name id) value))) s =
      ends (early call env (.name id) value >>= amend env (arith op)) s := by
  have hb : ∀ a b, binary op.toBinary a b = arith op a b := fun a b => by cases op <;> rfl
  have he : eval call env (.binary op.toBinary (.name id) value) = (do
      let a ← eval call env (.name id)
      let b ← eval call env value
      binary op.toBinary a b) := by
    cases op <;> simp only [ArithOp.toBinary, eval]
  rw [ends_eval_bind]
  simp only [placeFirst, he, hb, early, amend, eval, locate, Spot.read, bind_assoc, pure_bind]

theorem literalNumber_one : literalNumber "1" = .int 1 := rfl

theorem ends_eval_step (op : StepOp) (keepsOld : Bool) (id : String) :
    ends (eval call env (.step op keepsOld id)) s =
      ends (early call env (.name id) (.number "1") >>= amend env (arith op.arith)) s := by
  simp only [eval, stepVariable, early, amend, locate, Spot.read, literalNumber_one, bind_assoc,
    pure_bind]
  refine ends_bind_congr fun _ _ _ => ends_bind_congr fun old _ _ => ends_bind_congr fun new t ha =>
    ends_bind_idle fun _ u _ => ?_
  cases keepsOld with
  | false => exact ⟨new, rfl⟩
  | true => exact arith_undo ha u

/-- What an update gives back is there, so giving it back never stops. -/
theorem ends_reread (spot : Spot) (hn : ∀ id, spot ≠ .name id) (op : ArithOp) (v : Value)
    (keepsOld : Bool) :
    ends (do
      let old ← spot.read env
      let new ← arith op old v
      spot.write env new
      if keepsOld then return old else spot.read env) s =
    ends (do
      let old ← spot.read env
      amend env (arith op) (spot, old, v)) s := by
  refine ends_bind_congr fun old t hr => ends_bind_congr fun new u ha =>
    ends_bind_idle fun _ w hw => ?_
  -- arithmetic makes at most a list, so an object that was there still is
  obtain rfl := Spot.read_ok hr
  cases keepsOld with
  | true => exact ⟨old, rfl⟩
  | false => exact ⟨new, Spot.read_write hn hr (arith_objects ha) hw⟩

theorem ends_eval_update (owner key : Target.Expr) (op : ArithOp) (value : Target.Expr)
    (keepsOld : Option Bool) :
    ends (eval call env (.update owner key op value keepsOld)) s =
      ends (late call env (.item owner key) value >>= amend env (arith op)) s := by
  simp only [eval, late, locate, bind_assoc, pure_bind]
  exact ends_bind_congr fun o _ _ => ends_bind_congr fun k _ _ => ends_bind_congr fun v t _ =>
    ends_reread env t (.item o k) (by simp) op v _

theorem ends_eval_updateAttr (owner : Target.Expr) (field : String) (op : ArithOp)
    (value : Target.Expr) (keepsOld : Option Bool) :
    ends (eval call env (.updateAttr owner field op value keepsOld)) s =
      ends (late call env (.attr owner field) value >>= amend env (arith op)) s := by
  simp only [eval, late, locate, bind_assoc, pure_bind]
  exact ends_bind_congr fun o _ _ => ends_bind_congr fun v t _ =>
    ends_reread env t (.attr o field) (by simp) op v _

end

/-! ## Lists changed in place -/

section

variable {call : Caller} {env : List Nat} {place : Target.Place} {value : Target.Expr}
  {op : ArithOp} {s t : State}

/-- Unless a list is changed in place, it makes no difference that an operation may be one in
place. -/
theorem ends_early_inPlace (h : ∀ spot ref v t u,
      early call env place value s = .ok (spot, .list ref, v) t →
        inPlace op (.list ref) v t ≠ .ok (.list ref) u) :
    ends (early call env place value >>= amend env (inPlace op)) s =
      ends (early call env place value >>= amend env (arith op)) s := by
  refine ends_bind_congr fun (spot, old, v) t he => ends_bind_inPlace ?_ (spot.write env)
  rintro ref u rfl
  exact h spot ref v t u he

/-- A list changed in place and written back is never what the plain operation leaves: that makes a
new list or writes something that is no list. -/
theorem amend_arith_ne {spot : Spot} {ref : Nat} {v old : Value}
    (hi : amend env (inPlace op) (spot, .list ref, v) s = .ok () t)
    (hr : (∀ id, spot ≠ .name id) ∧ spot.read env s = .ok old s ∨ ∃ ref, old = .list ref) :
    amend env (arith op) (spot, old, v) s ≠ .ok () t := by
  intro ha
  obtain ⟨_, u, hi, hw⟩ := run_bind_ok hi
  obtain ⟨new, u', ha, hw'⟩ := run_bind_ok ha
  obtain ⟨rfl, hsize, hobjects⟩ := inPlace_list_ok hi
  -- the two states would have to agree in the number of lists and in what the spot holds
  have hc := combines_arith op old v s
  rw [ha] at hc
  cases hc with
  | value _ hne =>
    rcases hr with ⟨hn, hr⟩ | ⟨ref', rfl⟩
    · have hnew := Spot.read_write hn hr rfl hw'
      rw [Spot.read_write hn hr hobjects hw] at hnew
      cases hnew
      exact hne ref rfl
    · obtain ⟨ref', rfl⟩ := arith_list_ok ha
      exact hne ref' rfl
  | newList items =>
    have h₁ := Spot.write_lists_size hw
    have h₂ := Spot.write_lists_size hw'
    rw [Array.size_push] at h₂
    omega

/-- A plain operation that has made no list leaves the state as it was when it faults, or when the
write does. -/
theorem amend_arith_faulted {spot : Spot} {v old : Value} (hsize : t.lists.size = s.lists.size)
    (h : ends (amend env (arith op) (spot, old, v)) s = (.faulted, t)) :
    t = s ∧ ((∃ ref, old = .list ref) → ∃ f, arith op old v s = .error (.fault f) s) := by
  unfold amend at h
  have hc := combines_arith op old v s
  generalize ha : arith op old v s = r at hc
  cases hc with
  | faulted f =>
    rw [ends_bind_of_error ha, ends_of_fault ha] at h
    cases h
    exact ⟨rfl, fun _ => ⟨f, rfl⟩⟩
  | value new hne =>
    rw [ends_bind_of_ok ha] at h
    rcases Spot.write_cases env spot new s with ⟨u, hw⟩ | ⟨f, hw⟩
    · rw [ends_of_ok hw] at h
      cases h
    · rw [ends_of_fault hw] at h
      cases h
      refine ⟨rfl, ?_⟩
      rintro ⟨ref, rfl⟩
      obtain ⟨ref', rfl⟩ := arith_list_ok ha
      exact absurd rfl (hne ref')
  | newList items =>
    rw [ends_bind_of_ok ha] at h
    -- a list made in vain would show in the number of lists
    rcases Spot.write_cases env spot (.list s.lists.size) { s with lists := s.lists.push items } with
      ⟨u, hw⟩ | ⟨f, hw⟩
    · rw [ends_of_ok hw] at h
      cases h
    · rw [ends_of_fault hw] at h
      cases h
      rw [Array.size_push] at hsize
      omega

/-- A list changed in place ends like the plain operation only if the change leaves it as it was and
it cannot be written back. -/
theorem amend_inPlace_eq {spot : Spot} {ref : Nat} {v old : Value} {u : State}
    (hi : inPlace op (.list ref) v s = .ok (.list ref) u)
    (hr : (∀ id, spot ≠ .name id) ∧ spot.read env s = .ok old s ∨ ∃ ref, old = .list ref)
    (h : ends (amend env (inPlace op) (spot, .list ref, v)) s =
      ends (amend env (arith op) (spot, old, v)) s) :
    u = s ∧ (∃ f, spot.write env (.list ref) s = .error (.fault f) s) ∧
      ((∃ ref, old = .list ref) → ∃ f, arith op old v s = .error (.fault f) s) := by
  obtain ⟨-, hsize, -⟩ := inPlace_list_ok hi
  rcases Spot.write_cases env spot (.list ref) u with ⟨t, hw⟩ | ⟨f, hw⟩
  · have hf : amend env (inPlace op) (spot, .list ref, v) s = .ok () t := (bind_of_ok hi).trans hw
    rw [ends_of_ok hf] at h
    obtain ⟨_, ha⟩ := ok_of_ends h.symm
    exact absurd ha (amend_arith_ne hf hr)
  · have hf : amend env (inPlace op) (spot, .list ref, v) s = .error (.fault f) u :=
      (bind_of_ok hi).trans hw
    rw [ends_of_fault hf] at h
    obtain ⟨rfl, hl⟩ := amend_arith_faulted hsize h.symm
    exact ⟨rfl, ⟨f, hw⟩, hl⟩

end

end ConsoleCpp.Machine
