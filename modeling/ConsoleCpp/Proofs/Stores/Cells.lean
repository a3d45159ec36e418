/-
Writes to elements and fields change one cell or nothing. A cell is an element of a list or a field
of an object, wherever the list or object is referred to from. A write that is asked for through
some owner and key finds the cell that these address. If there is none, if the cell cannot be read,
or if the operation on its old value fails, the write faults and the state is as it was. Otherwise
the cell holds the new value, whoever looks at it, and every other cell is as it was.

An operation may make a list, which goes into the cell as a reference. So the state between reading
and writing can have one list more than the one before, and nothing else in it is different.
-/
import ConsoleCpp.Proofs.Machine.Effects
import ConsoleCpp.Text.Quoted

namespace ConsoleCpp.Machine

/-! ## Cells -/

/-- An element of a list or a field of an object. -/
inductive Cell where
  | item (list index : Nat)
  | attr (object : Nat) (field : String)
deriving DecidableEq

/-- What a cell holds; one that is not there holds nothing. -/
def State.held (s : State) : Cell → Option Value
  | .item list index => (s.list list)[index]?
  | .attr object field => (s.object object).lookup field

/-- The list or object of the cell is there. -/
def Cell.In (s : State) : Cell → Prop
  | .item list _ => list < s.lists.size
  | .attr object _ => object < s.objects.size

/-- The cell can be written: the element is there, or the object is. -/
def Cell.Room (s : State) : Cell → Prop
  | .item list index => index < (s.list list).size
  | .attr object _ => object < s.objects.size

/-- The state with a value in a cell. -/
def State.put (s : State) (v : Value) : Cell → State
  | .item list index => { s with lists := s.lists.modify list (·.setIfInBounds index v) }
  | .attr object field => { s with objects := s.objects.modify object (withField · field v) }

section

variable {s : State} {v : Value} {cell other : Cell}

theorem getD_modify_of_ne {α : Type} {xs : Array α} {i j : Nat} (h : i ≠ j) (f : α → α) (d : α) :
    (xs.modify i f).getD j d = xs.getD j d := by
  simp [Array.getD_eq_getD_getElem?, Array.getElem?_modify, h]

theorem lookup_withField_of_ne {field other : String} (h : other ≠ field) (v : Value) :
    ∀ fields : List (String × Value), (withField fields field v).lookup other = fields.lookup other
  | [] => by simp [withField, h]
  | (f, old) :: rest => by
    unfold withField
    split
    · rename_i hf
      rw [beq_iff_eq] at hf
      rw [List.lookup_cons, List.lookup_cons, hf, beq_eq_false_iff_ne.2 h]
    · rw [List.lookup_cons, List.lookup_cons, lookup_withField_of_ne h v rest]

theorem held_put_self (h : cell.Room s) : (s.put v cell).held cell = some v := by
  cases cell with
  | item list index =>
    have hi : index < (s.list list).size := h
    show ((s.lists.modify list _).getD list #[])[index]? = some v
    rw [getD_modify (list_size_pos hi)]
    exact Array.getElem?_setIfInBounds_self_of_lt hi
  | attr object field =>
    show ((s.objects.modify object _).getD object []).lookup field = some v
    rw [getD_modify h, lookup_withField]

theorem held_put_of_ne (h : other ≠ cell) : (s.put v cell).held other = s.held other := by
  cases cell with
  | item list index =>
    cases other with
    | attr object field => rfl
    | item list' index' =>
      show ((s.lists.modify list _).getD list' #[])[index']? = (s.lists.getD list' #[])[index']?
      by_cases hl : list = list'
      · subst hl
        have hi : index ≠ index' := by
          rintro rfl
          exact h rfl
        -- a list that is not there is read as empty on both sides
        by_cases hs : list < s.lists.size
        · rw [getD_modify hs, Array.getElem?_setIfInBounds_ne hi]
        · simp [Array.getD, hs]
      · rw [getD_modify_of_ne hl]
  | attr object field =>
    cases other with
    | item list index => rfl
    | attr object' field' =>
      show ((s.objects.modify object _).getD object' []).lookup field' =
        (s.objects.getD object' []).lookup field'
      by_cases ho : object = object'
      · subst ho
        have hf : field' ≠ field := by
          rintro rfl
          exact h rfl
        by_cases hs : object < s.objects.size
        · rw [getD_modify hs, lookup_withField_of_ne hf]
        · simp [Array.getD, hs]
      · rw [getD_modify_of_ne ho]

/-- A write makes no list longer. -/
theorem put_list_size (s : State) (v : Value) (cell : Cell) (list : Nat) :
    ((s.put v cell).list list).size = (s.list list).size := by
  cases cell with
  | attr object field => rfl
  | item list' index =>
    show ((s.lists.modify list' _).getD list #[]).size = (s.lists.getD list #[]).size
    by_cases hl : list' = list
    · subst hl
      by_cases hs : list' < s.lists.size
      · rw [getD_modify hs, Array.size_setIfInBounds]
      · simp [Array.getD, hs]
    · rw [getD_modify_of_ne hl]

end

/-! ## Owners and keys -/

/-- A part of a value that can be asked for: the element at a key, or a field. -/
inductive Part where
  | item (owner key : Value)
  | attr (owner : Value) (field : String)

namespace Part

/-- The value whose part it is. -/
def owner : Part → Value
  | .item owner _ | .attr owner _ => owner

def get (s : State) : Part → Except Fault Value
  | .item owner key => getItem s owner key
  | .attr owner field => getAttr s owner field

def set (v : Value) : Part → Run Unit
  | .item owner key => setItem owner key v
  | .attr owner field => setAttr owner field v

end Part

/-- The index of a place among `size` elements, counted from the front, or from the end and then
negative. -/
def Counts (size : Nat) (n : Int) (place : Nat) : Prop :=
  place < size ∧ (n = place ∨ n + size = place)

/-- The cell that an owner and a key or field address. Values by reference to the same list or
object address the same cells, and so do different keys for one place. An integer that is too large
for an index addresses nothing, and no list of a run is so long that it could; nor does a name that
Python gives a meaning of its own. -/
inductive Part.Addresses (s : State) : Part → Cell → Prop
  | item {list place : Nat} {key : Value} {n : Int} : key.int? = some n → isHuge n = false →
    Counts (s.list list).size n place → Addresses s (.item (.list list) key) (.item list place)
  | object {object : Nat} {field : String} : isSpecial field = false →
    Addresses s (.attr (.object object) field) (.attr object field)
  | function {f : Closure} {field : String} : isSpecial field = false →
    Addresses s (.attr (.function f) field) (.attr f.ref field)

/-- The fields of the value are there, if it is one that has fields: nothing refers to an object
that was never made. -/
def State.Has (s : State) : Value → Prop
  | .object ref => ref < s.objects.size
  | .function f => f.ref < s.objects.size
  | _ => True

theorem position_eq_some_iff {size place : Nat} {n : Int} :
    position? size n = some place ↔ Counts size n place := by
  unfold position? Counts
  simp only [Bool.and_eq_true, decide_eq_true_eq]
  by_cases hn : n < 0
  · simp only [if_pos hn]
    split
    · rw [Option.some.injEq]
      omega
    · simp only [reduceCtorEq, false_iff]
      omega
  · simp only [if_neg hn]
    split
    · rw [Option.some.injEq]
      omega
    · simp only [reduceCtorEq, false_iff]
      omega

namespace Part

section

variable {s t : State} {part : Part} {cell : Cell} {v : Value}

theorem Addresses.room (h : part.Addresses s cell) (hs : s.Has part.owner) : cell.Room s := by
  cases h with
  | item _ _ hn => exact hn.1
  | object _ => exact hs
  | function _ => exact hs

/-- A part addresses at most one cell. -/
theorem Addresses.unique {other : Cell} (h : part.Addresses s cell) (ho : part.Addresses s other) :
    other = cell := by
  cases h with
  | item hk _ hn =>
    cases ho with
    | item hk' _ hn' =>
      rw [hk] at hk'
      cases hk'
      have hp := position_eq_some_iff.2 hn
      rw [position_eq_some_iff.2 hn'] at hp
      cases hp
      rfl
  | object _ =>
    cases ho
    rfl
  | function _ =>
    cases ho
    rfl

/-- What a part addresses depends on how long the lists are, and on nothing else of the state. -/
theorem Addresses.mono (h : part.Addresses s cell)
    (hs : ∀ list < s.lists.size, (t.list list).size = (s.list list).size) :
    part.Addresses t cell := by
  cases h with
  | item hk hh hn =>
    refine .item hk hh ?_
    rwa [hs _ (list_size_pos hn.1)]
  | object hf => exact .object hf
  | function hf => exact .function hf

/-- The addressed cell is what is read. -/
theorem Addresses.get_eq_iff (h : part.Addresses s cell) :
    part.get s = .ok v ↔ s.held cell = some v := by
  cases h with
  | @item list place key n hk hh hn =>
    have hp := position_eq_some_iff.2 hn
    show getItem s (.list list) key = .ok v ↔ (s.list list)[place]? = some v
    simp only [getItem, hk, hh, Bool.false_eq_true, if_false, hp, Option.bind_some]
    cases (s.list list)[place]? with
    | none => simp
    | some w => simp
  | @object object field hf =>
    show getAttr s (.object object) field = .ok v ↔ (s.object object).lookup field = some v
    simp only [getAttr, hf, Bool.false_eq_true, if_false]
    cases (s.object object).lookup field with
    | none => simp
    | some w => simp
  | @function f field hf =>
    show getAttr s (.function f) field = .ok v ↔ (s.object f.ref).lookup field = some v
    simp only [getAttr, hf, Bool.false_eq_true, if_false]
    cases (s.object f.ref).lookup field with
    | none => simp
    | some w => simp

/-- The addressed cell is what is written. -/
theorem Addresses.set_eq (h : part.Addresses s cell) (v : Value) :
    part.set v s = .ok () (s.put v cell) := by
  cases h with
  | @item list place key n hk hh hn =>
    have hc : itemCell s (.list list) key = .ok (list, place) := by
      simp only [itemCell, hk, hh, Bool.false_eq_true, if_false, position_eq_some_iff.2 hn]
    show (orFault (itemCell s (.list list) key) >>= _) s = _
    rw [hc]
    rfl
  | @object object field hf =>
    have hc : attrCell (.object object) field = .ok object := by
      simp only [attrCell, hf, Bool.false_eq_true, if_false]
    show (orFault (attrCell (.object object) field) >>= _) s = _
    rw [hc]
    rfl
  | @function f field hf =>
    have hc : attrCell (.function f) field = .ok f.ref := by
      simp only [attrCell, hf, Bool.false_eq_true, if_false]
    show (orFault (attrCell (.function f) field) >>= _) s = _
    rw [hc]
    rfl

/-- Elements are written through an owner and a key that address them. -/
theorem addresses_of_itemCell {owner key : Value} {list place : Nat}
    (h : itemCell s owner key = .ok (list, place)) :
    (Part.item owner key).Addresses s (.item list place) := by
  unfold itemCell at h
  split at h
  · split at h
    · cases h
    · rename_i n hk
      split at h
      · cases h
      · rename_i hh
        split at h
        · rename_i hp
          cases h
          exact .item hk (by simpa using hh) (position_eq_some_iff.1 hp)
        · cases h
  · cases h
  · cases h

theorem addresses_of_attrCell {owner : Value} {field : String} {object : Nat}
    (h : attrCell owner field = .ok object) :
    (Part.attr owner field).Addresses s (.attr object field) := by
  obtain ⟨hf, hc⟩ := attrCell_ok h
  rcases hc with rfl | ⟨f, rfl, rfl⟩
  · exact .object hf
  · exact .function hf

/-- Where no cell is addressed nothing can be written. -/
theorem set_of_unaddressed (h : ∀ cell, ¬ part.Addresses s cell) (v : Value) :
    ∃ f, part.set v s = .error (.fault f) s := by
  cases part with
  | item owner key =>
    show ∃ f, (orFault (itemCell s owner key) >>= _) s = .error (.fault f) s
    cases hc : itemCell s owner key with
    | error f => exact ⟨f, rfl⟩
    | ok cell => exact absurd (addresses_of_itemCell hc) (h _)
  | attr owner field =>
    show ∃ f, (orFault (attrCell owner field) >>= _) s = .error (.fault f) s
    cases hc : attrCell owner field with
    | error f => exact ⟨f, rfl⟩
    | ok object => exact absurd (addresses_of_attrCell hc) (h _)

/-- What can be read where no cell is addressed is a character of a text, or a method. -/
theorem get_of_unaddressed (h : ∀ cell, ¬ part.Addresses s cell) (hg : part.get s = .ok v) :
    (∃ text, v = .text text) ∨ ∃ m, v = .method m := by
  cases part with
  | item owner key =>
    rcases getItem_ok hg with ⟨list, rfl⟩ | htext
    · cases hc : itemCell s (.list list) key with
      | ok cell => exact absurd (addresses_of_itemCell hc) (h _)
      | error f =>
        obtain ⟨g, hg'⟩ := getItem_of_itemCell_error hc
        exact absurd (hg.symm.trans hg') nofun
    · exact .inl htext
  | attr owner field =>
    rcases attrCell_of_getAttr hg with ⟨object, hc⟩ | hmethod
    · exact absurd (addresses_of_attrCell hc) (h _)
    · exact .inr hmethod

end

end Part

/-! ## Operations on the old value -/

/-- The operation that a text names, of an old value and an operand. Texts other than those of the
five operators name none. -/
def operate (name : String) (operand old : Value) : Run Value :=
  match ArithOp.ofText? name with
  | some op => arith op old operand
  | none => fault (.unknownOperator (Text.quoted name))

/-- Each operator is the operation that its text names. -/
theorem operate_text (op : ArithOp) (operand old : Value) :
    operate op.text operand old = arith op old operand := by
  cases op <;> rfl

/-- The one state may have more lists than the other, and is the same in everything else. -/
structure Grown (s t : State) : Prop where
  lists : ∀ list < s.lists.size, t.list list = s.list list
  objects : t.objects = s.objects
  frames : t.frames = s.frames
  input : t.input = s.input
  output : t.output = s.output
  printed : t.printed = s.printed
  addresses : t.addresses = s.addresses

theorem Grown.refl (s : State) : Grown s s := ⟨fun _ _ => rfl, rfl, rfl, rfl, rfl, rfl, rfl⟩

section

variable {s t : State} {op : ArithOp} {name : String} {old operand new v : Value} {cell : Cell}

theorem arith_grown (h : arith op old operand s = .ok new t) : Grown s t := by
  have hc := combines_arith op old operand s
  rw [h] at hc
  cases hc with
  | value _ _ => exact .refl s
  | newList items =>
    refine ⟨fun list hl => ?_, rfl, rfl, rfl, rfl, rfl, rfl⟩
    show (s.lists.push items).getD list #[] = s.lists.getD list #[]
    simp [Array.getD, hl, Nat.lt_succ_of_lt hl, Array.getElem_push_lt]

theorem Grown.has (h : Grown s t) (hv : s.Has v) : t.Has v := by
  cases v with
  | object ref =>
    show ref < t.objects.size
    rw [h.objects]
    exact hv
  | function f =>
    show f.ref < t.objects.size
    rw [h.objects]
    exact hv
  | _ => trivial

/-- Cells that were there hold what they held. -/
theorem Grown.held_eq (h : Grown s t) (hc : cell.In s) : t.held cell = s.held cell := by
  cases cell with
  | item list place =>
    show (t.list list)[place]? = (s.list list)[place]?
    rw [h.lists list hc]
  | attr object field =>
    show (t.objects.getD object []).lookup field = (s.objects.getD object []).lookup field
    rw [h.objects]

/-- What is made of a text is in no list, and of a method nothing is made. -/
theorem arith_of_fixed (ho : (∃ text, old = .text text) ∨ ∃ m, old = .method m)
    (h : arith op old operand s = .ok new t) : t = s := by
  rcases ho with ⟨text, rfl⟩ | ⟨m, rfl⟩
  · cases op with
    | add =>
      cases operand <;> cases h
      rfl
    | mul =>
      cases hn : operand.int? with
      | none =>
        simp only [arith, product, Value.num?, isSequence, hn] at h
        cases h
      | some n =>
        simp only [arith, product, Value.num?, isSequence, hn] at h
        change (orFault (repetitions text.length n) >>= _) s = .ok new t at h
        cases hr : repetitions text.length n with
        | ok count =>
          rw [hr] at h
          cases h
          rfl
        | error f =>
          rw [hr] at h
          cases h
    | sub | div | mod => cases h
  · cases op with
    | add => cases operand <;> cases h
    | mul =>
      have hm : arith .mul (.method m) operand =
          if isSequence operand then fault (.notRepeatable (Value.method m).typeName)
          else fault (.unsupported "*" (Value.method m).typeName operand.typeName) := rfl
      rw [hm] at h
      split at h
      · cases h
      · cases h
    | sub | div | mod => cases h

theorem operate_cases (name : String) (operand old : Value) (s : State) :
    (∃ f, operate name operand old s = .error (.fault f) s ∧
      ∀ op, ArithOp.ofText? name = some op → ∀ new u, arith op old operand s ≠ .ok new u) ∨
    ∃ op new u, ArithOp.ofText? name = some op ∧ arith op old operand s = .ok new u ∧
      operate name operand old s = .ok new u := by
  unfold operate
  cases ArithOp.ofText? name with
  | none => exact .inl ⟨_, rfl, nofun⟩
  | some op =>
    dsimp only
    have hc := combines_arith op old operand s
    generalize hr : arith op old operand s = r at hc
    cases hc with
    | faulted f =>
      refine .inl ⟨f, rfl, ?_⟩
      rintro _ ⟨⟩ new u hok
      rw [hr] at hok
      cases hok
    | value new _ => exact .inr ⟨op, new, s, rfl, hr, rfl⟩
    | newList items => exact .inr ⟨op, _, _, rfl, hr, rfl⟩

end

/-! ## Writes -/

/-- What is written: a value, or what an operation makes of the old value and an operand. An update
gives back the new value, or the old one if that is to be kept. -/
inductive Change where
  | set (v : Value)
  | update (name : String) (operand : Value) (keepsOld : Bool)

/-- The write to a part. -/
def Part.write : Part → Change → Run Value
  | .item owner key, .set v => storeItem owner key v
  | .item owner key, .update name operand keepsOld =>
    updateItem owner key (operate name operand) keepsOld
  | .attr owner field, .set v => storeAttr owner field v
  | .attr owner field, .update name operand keepsOld =>
    updateAttr owner field (operate name operand) keepsOld

/-- From a state, a change of a cell that holds `old` makes a new value for it, if the operation
succeeds. The last state is the one after the operation. -/
inductive Change.Makes (s : State) : Change → Option Value → Value → State → Prop
  | set {v : Value} {old : Option Value} : Makes s (.set v) old v s
  | update {name : String} {op : ArithOp} {operand old new : Value} {keepsOld : Bool} {u : State} :
    ArithOp.ofText? name = some op → arith op old operand s = .ok new u →
    Makes s (.update name operand keepsOld) (some old) new u

/-- What a write gives back. -/
def Change.answer : Change → Option Value → Value → Value
  | .update _ _ true, some old, _ => old
  | _, _, new => new

section

variable {s t u : State} {part : Part} {change : Change} {cell : Cell} {old new : Value}

theorem write_set (part : Part) (v : Value) :
    part.write (.set v) = (do part.set v; return v) := by
  cases part <;> rfl

theorem write_update (part : Part) (name : String) (operand : Value) (keepsOld : Bool) :
    part.write (.update name operand keepsOld) = (do
      let old ← orFault (part.get (← get))
      let new ← operate name operand old
      part.set new
      if keepsOld then return old else orFault (part.get (← get))) := by
  cases part <;> rfl

theorem Change.Makes.grown (h : change.Makes s (s.held cell) new u) : Grown s u := by
  generalize s.held cell = held at h
  cases h with
  | set => exact .refl s
  | update _ ha => exact arith_grown ha

/-- How a write ends: it faults and changes nothing, as there is no new value or no cell for it, or
the new value is put in the cell. -/
def Ended (s : State) (part : Part) (change : Change) : Prop :=
  (∃ f, part.write change s = .error (.fault f) s ∧
    ∀ cell new u, part.Addresses s cell → ¬ change.Makes s (s.held cell) new u) ∨
  ∃ cell new u, part.Addresses s cell ∧ change.Makes s (s.held cell) new u ∧
    part.write change s = .ok (change.answer (s.held cell) new) (u.put new cell)

theorem write_set_ends (s : State) (part : Part) (v : Value) : Ended s part (.set v) := by
  unfold Ended
  rw [write_set]
  by_cases h : ∃ cell, part.Addresses s cell
  · obtain ⟨cell, hc⟩ := h
    exact .inr ⟨cell, v, s, hc, .set, bind_of_ok (hc.set_eq v)⟩
  · obtain ⟨f, hf⟩ := part.set_of_unaddressed (not_exists.1 h) v
    exact .inl ⟨f, bind_of_error hf, fun cell _ _ hc => absurd ⟨cell, hc⟩ h⟩

/-- An update that finds a value to start from. -/
theorem write_update_of_get {name : String} {operand : Value} {keepsOld : Bool}
    (hg : part.get s = .ok old) :
    part.write (.update name operand keepsOld) s =
      (operate name operand old >>= fun new => do
        part.set new
        if keepsOld then return old else orFault (part.get (← get))) s := by
  rw [write_update]
  show (orFault (part.get s) >>= _) s = _
  rw [hg]
  rfl

theorem write_update_of_error {name : String} {operand : Value} {keepsOld : Bool} {f : Fault}
    (hg : part.get s = .error f) :
    part.write (.update name operand keepsOld) s = .error (.fault f) s := by
  rw [write_update]
  show (orFault (part.get s) >>= _) s = _
  rw [hg]
  rfl

/-- An update of an addressed cell that holds something. -/
theorem write_update_addressed {name : String} {operand : Value} {keepsOld : Bool}
    (hs : s.Has part.owner) (hc : part.Addresses s cell) (hh : s.held cell = some old) :
    Ended s part (.update name operand keepsOld) := by
  have hread : part.get s = .ok old := hc.get_eq_iff.2 hh
  rcases operate_cases name operand old s with ⟨f, hf, hno⟩ | ⟨op, new, u, hop, ha, ho⟩
  · refine .inl ⟨f, (write_update_of_get hread).trans (bind_of_error hf), ?_⟩
    intro other new u hother hm
    rw [hc.unique hother, hh] at hm
    cases hm with
    | update hop ha => exact hno _ hop _ _ ha
  · -- the cell is addressed in the state with the new list too, as no other list has changed
    have hgrown := arith_grown ha
    have hcu : part.Addresses u cell := hc.mono fun list hl => by rw [hgrown.lists list hl]
    have hroom := hcu.room (hgrown.has hs)
    refine .inr ⟨cell, new, u, hc, hh.symm ▸ .update hop ha, ?_⟩
    rw [write_update_of_get hread, bind_of_ok ho, bind_of_ok (hcu.set_eq new), hh]
    cases keepsOld with
    | true => rfl
    | false =>
      -- what is given back is read again
      have hcp : part.Addresses (u.put new cell) cell :=
        hcu.mono fun list _ => put_list_size u new cell list
      show orFault (part.get (u.put new cell)) (u.put new cell) = _
      rw [hcp.get_eq_iff.2 (held_put_self hroom)]
      rfl

theorem write_update_ends (name : String) (operand : Value) (keepsOld : Bool)
    (hs : s.Has part.owner) : Ended s part (.update name operand keepsOld) := by
  cases hg : part.get s with
  | error f =>
    refine .inl ⟨f, write_update_of_error hg, fun cell new u hc hm => ?_⟩
    cases hh : s.held cell with
    | none =>
      rw [hh] at hm
      cases hm
    | some old =>
      rw [hc.get_eq_iff.2 hh] at hg
      cases hg
  | ok old =>
    by_cases h : ∃ cell, part.Addresses s cell
    · obtain ⟨cell, hc⟩ := h
      exact write_update_addressed hs hc (hc.get_eq_iff.1 hg)
    · -- the parts of a text can be read, and no operation on them leaves anything behind
      have hnone := not_exists.1 h
      refine .inl ?_
      rw [write_update_of_get hg]
      rcases operate_cases name operand old s with ⟨f, hf, -⟩ | ⟨op, new, u, -, ha, ho⟩
      · exact ⟨f, bind_of_error hf, fun cell _ _ hc => absurd hc (hnone cell)⟩
      · obtain rfl := arith_of_fixed (part.get_of_unaddressed hnone hg) ha
        obtain ⟨f, hf⟩ := part.set_of_unaddressed hnone new
        refine ⟨f, ?_, fun cell _ _ hc => absurd hc (hnone cell)⟩
        rw [bind_of_ok ho]
        exact bind_of_error hf

end

/-- The one state comes from the other by a new value in a cell. The state between them is the one
in which the value was made, which may have a list more. -/
structure Changed (s between t : State) (cell : Cell) (new : Value) : Prop where
  held : t.held cell = some new
  /-- All owners and keys that address the cell see it. -/
  seen : ∀ view : Part, view.Addresses s cell → view.get t = .ok new
  others : ∀ other ≠ cell, t.held other = between.held other
  kept : ∀ other ≠ cell, other.In s → t.held other = s.held other
  frames : t.frames = s.frames
  input : t.input = s.input
  output : t.output = s.output
  printed : t.printed = s.printed
  addresses : t.addresses = s.addresses

section

variable {s u : State} {part : Part} {cell : Cell} {new : Value}

theorem changed_put (hc : part.Addresses s cell) (hs : s.Has part.owner) (hgrown : Grown s u) :
    Changed s u (u.put new cell) cell new := by
  have hsize : ∀ list < s.lists.size, ((u.put new cell).list list).size = (s.list list).size :=
    fun list hl => by rw [put_list_size, hgrown.lists list hl]
  have hcu : part.Addresses u cell := hc.mono fun list hl => by rw [hgrown.lists list hl]
  have hheld : (u.put new cell).held cell = some new :=
    held_put_self (hcu.room (hgrown.has hs))
  refine ⟨hheld, fun view ha => (ha.mono hsize).get_eq_iff.2 hheld, fun other hne => ?_,
    fun other hne hin => ?_, ?_, ?_, ?_, ?_, ?_⟩
  · exact held_put_of_ne hne
  · rw [held_put_of_ne hne, hgrown.held_eq hin]
  · cases cell <;> exact hgrown.frames
  · cases cell <;> exact hgrown.input
  · cases cell <;> exact hgrown.output
  · cases cell <;> exact hgrown.printed
  · cases cell <;> exact hgrown.addresses

end

/-- A write to an element or field, from any state and through any owner that the state has. If it
stops, then in a fault that leaves the state as it was, and there was no addressed cell with a new
value for it. If it finishes, there is an addressed cell and a new value for it, which is the given
value or the result of the operation on the value that the cell held; the cell now holds it, nothing
else is changed, and the old value is given back where that was asked for, and otherwise the new
one. -/
theorem write_local (s : State) (part : Part) (change : Change) (hs : s.Has part.owner) :
    match part.write change s with
    | .error stop t => t = s ∧ (∃ f, stop = .fault f) ∧
        ∀ cell new u, part.Addresses s cell → ¬ change.Makes s (s.held cell) new u
    | .ok result t => ∃ cell new u, part.Addresses s cell ∧ change.Makes s (s.held cell) new u ∧
        result = change.answer (s.held cell) new ∧ Changed s u t cell new := by
  have hended : Ended s part change := by
    cases change with
    | set v => exact write_set_ends s part v
    | update name operand keepsOld => exact write_update_ends name operand keepsOld hs
  rcases hended with ⟨f, hf, hno⟩ | ⟨cell, new, u, hc, hm, hok⟩
  · rw [hf]
    exact ⟨rfl, ⟨f, rfl⟩, hno⟩
  · rw [hok]
    exact ⟨cell, new, u, hc, hm, rfl, changed_put hc hs hm.grown⟩

/-- Two variables that hold one object, with a list in a field. -/
def sharedObject : State :=
  { State.empty [] with
    lists := #[#[.int 1, .int 2]]
    objects := #[[("n", .list 0)]]
    frames := #[[("p", some (.object 0)), ("q", some (.object 0))]] }

/-- The same after the list has been joined to itself. -/
def sharedObjectDoubled : State :=
  { sharedObject with
    lists := #[#[.int 1, .int 2], #[.int 1, .int 2, .int 1, .int 2]]
    objects := #[[("n", .list 1)]] }

/-- An update of the field through the object gives back the new list, which both variables see. -/
theorem write_local_sharedObject :
    sharedObject.Has (Part.attr (.object 0) "n").owner ∧
    (Part.attr (.object 0) "n").write (.update "+" (.list 0) false) sharedObject =
      .ok (.list 1) sharedObjectDoubled ∧
    ∃ cell new u, (Part.attr (.object 0) "n").Addresses sharedObject cell ∧
      (Change.update "+" (.list 0) false).Makes sharedObject (sharedObject.held cell) new u ∧
      .list 1 = (Change.update "+" (.list 0) false).answer (sharedObject.held cell) new ∧
      Changed sharedObject u sharedObjectDoubled cell new := by
  have hs : sharedObject.Has (Part.attr (.object 0) "n").owner := Nat.zero_lt_one
  have hrun : (Part.attr (.object 0) "n").write (.update "+" (.list 0) false) sharedObject =
      .ok (.list 1) sharedObjectDoubled := rfl
  have h := write_local sharedObject (.attr (.object 0) "n") (.update "+" (.list 0) false) hs
  rw [hrun] at h
  exact ⟨hs, hrun, h⟩

end ConsoleCpp.Machine
