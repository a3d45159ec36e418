/-
What operators, stores and built-in functions make of values. They make no functions: each value
that they give back or store is data, or one that they were given or found in a list or field. They
leave the variables as they are, and none of their faults is that of a function without a body. So a
property that all data has, and that holds of what they are given and of what is stored, holds of
what they give back and of what is stored after them.
-/
import ConsoleCpp.Machine.Eval
import ConsoleCpp.Proofs.Machine.Runs
import ConsoleCpp.Proofs.Outcome

namespace ConsoleCpp.Machine

/-- Whether the value is a function of the program. -/
def Value.isFunction : Value → Bool
  | .function _ => true
  | _ => false

/-- The value is no function of the program. -/
def Value.IsData (v : Value) : Prop := v.isFunction = false

/-- Whether the fault is that of a function without a body. -/
def Fault.isUnimplemented : Fault → Bool
  | .unimplemented _ => true
  | _ => false

/-- The fault is not that of a function without a body. -/
def Fault.Ordinary (f : Fault) : Prop := f.isUnimplemented = false

/-! ## Results and faults

An operation that does not change the state gives data or an ordinary fault. -/

theorem toFloat_ends (x : Num) : Ends (fun _ => True) Fault.Ordinary x.toFloat := by
  unfold Num.toFloat
  split
  · trivial
  · split
    · trivial
    · exact rfl

theorem onFloats_ends (f : Float → Float → Float) (x y : Num) :
    Ends Value.IsData Fault.Ordinary (onFloats f x y) :=
  (toFloat_ends x).bind fun _ _ => (toFloat_ends y).bind fun _ _ => rfl

theorem plainArith_ends (onInt : Int → Int → Int) (onFloat : Float → Float → Float) (x y : Num) :
    Ends Value.IsData Fault.Ordinary (plainArith onInt onFloat x y) := by
  unfold plainArith
  split
  · exact rfl
  · exact onFloats_ends _ _ _

theorem intQuotient_ends (a b : Int) : Ends (fun _ => True) Fault.Ordinary (intQuotient a b) := by
  unfold intQuotient
  split
  · exact rfl
  · trivial

theorem intRemainder_ends (a b : Int) : Ends (fun _ => True) Fault.Ordinary (intRemainder a b) :=
  (intQuotient_ends a b).bind fun _ _ => trivial

theorem numQuotient_ends (x y : Num) : Ends Value.IsData Fault.Ordinary (numQuotient x y) := by
  unfold numQuotient
  split
  · exact (intQuotient_ends _ _).bind fun _ _ => rfl
  · refine (toFloat_ends _).bind fun _ _ => (toFloat_ends _).bind fun _ _ => ?_
    split
    · exact rfl
    · exact rfl

theorem divide_ends (a b : Value) : Ends Value.IsData Fault.Ordinary (divide a b) := by
  unfold divide
  split
  · exact numQuotient_ends _ _
  · exact rfl

theorem realOf_ends (v : Value) : Ends (fun _ => True) Fault.Ordinary (realOf v) := by
  unfold realOf
  split
  · exact toFloat_ends _
  · exact rfl

theorem floatRemainder_ends (a b : Float) :
    Ends Value.IsData Fault.Ordinary (floatRemainder a b) := by
  unfold floatRemainder
  split <;> exact rfl

theorem remainder_ends (a b : Value) : Ends Value.IsData Fault.Ordinary (remainder a b) := by
  unfold remainder
  split
  · exact (intRemainder_ends _ _).bind fun _ _ => rfl
  · exact (realOf_ends a).bind fun _ _ => (realOf_ends b).bind fun _ _ => floatRemainder_ends _ _

/-- A bit operation of two values is one of truth values or of integers, or it faults. -/
theorem bitwise_ends (op : String) (onBool : Bool → Bool → Bool) (onInt : Int → Int → Int)
    (a b : Value) : Ends Value.IsData Fault.Ordinary (bitwise op onBool onInt a b) := by
  unfold bitwise
  split
  · exact rfl
  · split <;> exact rfl

theorem bitOr_ends (a b : Value) : Ends Value.IsData Fault.Ordinary (bitOr a b) := by
  unfold bitOr
  split
  · exact rfl
  · exact bitwise_ends _ _ _ _ _

theorem shiftLeft_ends (m : Int) (n : Nat) : Ends Value.IsData Fault.Ordinary (shiftLeft m n) := by
  unfold shiftLeft
  split
  · exact rfl
  · split <;> exact rfl

/-- A shift ends as it does by the number of bits that it is given. -/
theorem shift_ends (op : String) {onInt : Int → Nat → Except Fault Value}
    (h : ∀ m n, Ends Value.IsData Fault.Ordinary (onInt m n)) (a b : Value) :
    Ends Value.IsData Fault.Ordinary (shift op onInt a b) := by
  unfold shift
  split
  · split
    · exact rfl
    · exact h _ _
  · exact rfl

theorem shiftRight_isData (m : Int) (n : Nat) : (shiftRight m n).IsData := by
  unfold shiftRight
  split <;> exact rfl

/-- How often a sequence is repeated is a number, or too large a one. -/
theorem repetitions_ends (size : Nat) (n : Int) :
    Ends (fun _ => True) Fault.Ordinary (repetitions size n) := by
  unfold repetitions
  split
  · exact rfl
  · split
    · exact rfl
    · trivial

theorem finitePower_ends (x y : Float) : Ends Value.IsData Fault.Ordinary (finitePower x y) := by
  unfold finitePower
  split
  · exact rfl
  split
  · exact rfl
  · dsimp only
    split <;> exact rfl

theorem floatPower_ends (x y : Float) : Ends Value.IsData Fault.Ordinary (floatPower x y) := by
  unfold floatPower
  split
  · exact finitePower_ends _ _
  · exact rfl

/-- An integer to a power that is no negative integer is computed without doubles. -/
theorem power_ends (x y : Num) : Ends Value.IsData Fault.Ordinary (power x y) := by
  unfold power
  split
  · split
    · exact rfl
    · exact (toFloat_ends _).bind fun _ _ => (toFloat_ends _).bind fun _ _ => floatPower_ends _ _
  · exact (toFloat_ends _).bind fun _ _ => (toFloat_ends _).bind fun _ _ => floatPower_ends _ _

theorem plainPower_ends (a b : Value) : Ends Value.IsData Fault.Ordinary (plainPower a b) := by
  unfold plainPower
  split
  · exact power_ends _ _
  · exact rfl

/-- A power by a modulus is an integer; nothing else has one. -/
theorem modularPower_ends (a b modulus : Value) :
    Ends Value.IsData Fault.Ordinary (modularPower a b modulus) := by
  unfold modularPower
  split
  · split
    · exact rfl
    · dsimp only
      split <;> exact rfl
  · split <;> exact rfl

/-- A conversion to an integer ends by the type of the value, and by the text or double that it is. -/
theorem integerOf_ends (v : Value) : Ends (fun _ => True) Fault.Ordinary (integerOf v) := by
  unfold integerOf
  split
  · trivial
  · trivial
  · split
    · exact rfl
    · trivial
    · exact rfl
  · split
    · trivial
    · exact rfl
    · exact rfl
  · exact rfl

theorem floatOf_ends (v : Value) : Ends Value.IsData Fault.Ordinary (floatOf v) := by
  unfold floatOf
  split
  · split <;> exact rfl
  · split
    · exact (toFloat_ends _).bind fun _ _ => rfl
    · exact rfl

theorem literalText_ends (spelling : String) :
    Ends Value.IsData Fault.Ordinary (literalText spelling) := by
  unfold literalText
  split <;> exact rfl

theorem integerInBase_ends (text base : Value) :
    Ends Value.IsData Fault.Ordinary (integerInBase text base) := by
  unfold integerInBase
  split
  · exact rfl
  · split
    · exact rfl
    split
    · exact (integerOf_ends _).bind fun _ _ => rfl
    · split
      split <;> exact rfl
  · exact rfl

/-! ### Looking at a state

What is looked up, compared or shown goes down into lists and objects, level by level. -/

section

variable (s : State)

theorem mapM_ends {α β : Type} {f : α → Except Fault β}
    (h : ∀ a, Ends (fun _ => True) Fault.Ordinary (f a)) :
    ∀ as : List α, Ends (fun _ => True) Fault.Ordinary (as.mapM f)
  | [] => trivial
  | a :: as => by
    rw [List.mapM_cons]
    exact (h a).bind fun _ _ => (mapM_ends h as).bind fun _ _ => trivial

theorem allM_ends {α : Type} {p : α → Except Fault Bool}
    (h : ∀ a, Ends (fun _ => True) Fault.Ordinary (p a)) :
    ∀ as : List α, Ends (fun _ => True) Fault.Ordinary (as.allM p)
  | [] => trivial
  | a :: as => by
    refine (h a).bind fun b _ => ?_
    cases b with
    | true => exact allM_ends h as
    | false => trivial

theorem heldEqual_ends {equal : Value → Value → Except Fault Bool} {x y : Value}
    (h : Ends (fun _ => True) Fault.Ordinary (equal x y)) :
    Ends (fun _ => True) Fault.Ordinary (heldEqual equal x y) := by
  unfold heldEqual
  split
  · exact rfl
  · exact h

theorem equalMethods_ends (f g : Method) :
    Ends (fun _ => True) Fault.Ordinary (equalMethods f g) := by
  unfold equalMethods
  split
  · trivial
  · split
    · exact rfl
    · trivial
  · split
    · exact rfl
    · trivial
  · trivial

/-- Values that hold others are compared by what they hold. -/
theorem equalTo_ends : ∀ (depth : Nat) (a b : Value),
    Ends (fun _ => True) Fault.Ordinary (equalTo s depth a b)
  | 0, _, _ => rfl
  | depth + 1, a, b => by
    have ih := equalTo_ends depth
    unfold equalTo
    split
    · trivial
    · trivial
    · split
      · trivial
      split
      · trivial
      · exact allM_ends (fun _ => heldEqual_ends (ih _ _)) _
    · split
      · trivial
      split
      · trivial
      · refine allM_ends (fun entry => ?_) _
        dsimp only
        split
        · exact heldEqual_ends (ih _ _)
        · trivial
    · trivial
    · trivial
    · exact equalMethods_ends _ _
    · split
      · trivial
      · trivial

theorem equal_ends (a b : Value) : Ends (fun _ => True) Fault.Ordinary (s.equal a b) :=
  equalTo_ends s s.pairDepth a b

theorem firstDifference_ends : ∀ as bs : List Value,
    Ends (fun _ => True) Fault.Ordinary (firstDifference s as bs)
  | [], _ | _ :: _, [] => trivial
  | a :: as, b :: bs => by
    refine (heldEqual_ends (equal_ends s a b)).bind fun same _ => ?_
    cases same with
    | true => exact firstDifference_ends as bs
    | false => trivial

/-- Lists are in the order of the first elements that differ, whatever order these are in. -/
theorem orderedTo_ends (op : OrderOp) : ∀ (depth : Nat) (a b : Value),
    Ends (fun _ => True) Fault.Ordinary (orderedTo s op depth a b)
  | 0, _, _ => rfl
  | depth + 1, a, b => by
    unfold orderedTo
    split
    · trivial
    · split
      · trivial
      · refine (firstDifference_ends s _ _).bind fun difference _ => ?_
        split
        · exact orderedTo_ends op depth _ _
        · trivial
    · split
      · trivial
      · exact rfl

theorem ordered_ends (op : OrderOp) (a b : Value) :
    Ends (fun _ => True) Fault.Ordinary (s.ordered op a b) :=
  orderedTo_ends s op s.pairDepth a b

-- No statement by `Ends`: to see through it Lean would compute the number of digits allowed.
theorem writeInt_ordinary {n : Int} {e : Fault} (h : writeInt n = .error e) : e.Ordinary := by
  unfold writeInt at h
  cases hw : Number.writeInt? n with
  | some text =>
    rw [hw] at h
    cases h
  | none =>
    rw [hw] at h
    cases h
    exact rfl

theorem writeAddress_ends (address : Option Nat) :
    Ends (fun _ => True) Fault.Ordinary (writeAddress address) := by
  unfold writeAddress
  split
  · trivial
  · exact rfl

theorem listedMethod_ends (m : Method) :
    Ends (fun _ => True) Fault.Ordinary (listedMethod s m) := by
  cases m with
  | append ref => exact (writeAddress_ends _).bind fun _ _ => trivial
  | upper t | lower t => exact rfl

/-- A listing of a list or object is put together from listings of what it holds. -/
theorem listed_ends : ∀ (depth : Nat) (openLists openObjects : List Nat) (v : Value),
    Ends (fun _ => True) Fault.Ordinary (listed s depth openLists openObjects v)
  | 0, _, _, _ => trivial
  | depth + 1, openLists, openObjects, v => by
    unfold listed
    cases v with
    | int n =>
      dsimp only
      cases hw : writeInt n with
      | ok text => trivial
      | error e => exact writeInt_ordinary hw
    | list ref =>
      dsimp only
      split
      · trivial
      · exact (mapM_ends (fun _ => listed_ends depth _ _ _) _).bind fun _ _ => trivial
    | object ref =>
      dsimp only
      split
      · trivial
      · refine (mapM_ends (fun entry => ?_) _).bind fun _ _ => trivial
        exact (listed_ends depth _ _ _).bind fun _ _ => trivial
    | function f => exact (writeAddress_ends _).bind fun _ _ => trivial
    | method m => exact listedMethod_ends s m
    | none | bool _ | float _ | text _ | builtin _ => trivial

theorem asText_ends (v : Value) : Ends (fun _ => True) Fault.Ordinary (s.asText v) := by
  unfold State.asText
  split
  · trivial
  · exact listed_ends s _ _ _ _

theorem showFloat_ends (x : Float) : Ends (fun _ => True) Fault.Ordinary (showFloat x) := by
  unfold showFloat
  cases Number.parts x with
  | nan | infinite negative => trivial
  | finite =>
    dsimp only
    split
    · rename_i n _ _
      cases hw : writeInt n with
      | ok text => trivial
      | error e => exact writeInt_ordinary hw
    · trivial

theorem shownTo_ends : ∀ (depth : Nat) (v : Value),
    Ends (fun _ => True) Fault.Ordinary (shownTo s depth v)
  | 0, _ => rfl
  | depth + 1, v => by
    unfold shownTo
    split
    · trivial
    · trivial
    · exact showFloat_ends _
    · exact (mapM_ends (fun _ => shownTo_ends depth _) _).bind fun _ _ => trivial
    · exact asText_ends s _

theorem shown_ends (v : Value) : Ends (fun _ => True) Fault.Ordinary (s.shown v) :=
  shownTo_ends s s.depth v

/-- A store to an element finds its place, or faults for want of one. -/
theorem itemCell_ends (owner key : Value) :
    Ends (fun _ => True) Fault.Ordinary (itemCell s owner key) := by
  unfold itemCell
  split
  · split
    · exact rfl
    split
    · exact rfl
    · split
      · trivial
      · exact rfl
  · split <;> exact rfl
  · exact rfl

theorem missingAttr_ordinary (owner : Value) (field : String) :
    (missingAttr owner field).Ordinary := by
  unfold missingAttr
  split
  · exact rfl
  · split
    · split <;> exact rfl
    · exact rfl

theorem noStore_ordinary (owner : Value) (field : String) : (noStore owner field).Ordinary := by
  unfold noStore
  split
  · exact rfl
  split
  · exact rfl
  · split
    · split <;> exact rfl
    · exact rfl

/-- A store to a field finds the table of fields, or faults where there is none. -/
theorem attrCell_ends (owner : Value) (field : String) :
    Ends (fun _ => True) Fault.Ordinary (attrCell owner field) := by
  unfold attrCell
  split
  · exact rfl
  · split
    · trivial
    · trivial
    · exact noStore_ordinary _ _

end

/-! ## What is stored -/

/-- The property holds of all elements of lists and of all values of fields. -/
structure Stored (good : Value → Prop) (s : State) : Prop where
  elements : ∀ ref, ∀ v ∈ s.list ref, good v
  fields : ∀ ref, ∀ entry ∈ s.object ref, good entry.2

section

variable {good : Value → Prop} {s : State}

/-- A new list does not disturb the others. -/
theorem Stored.pushList (h : Stored good s) {items : Array Value} (hi : ∀ v ∈ items, good v) :
    Stored good { s with lists := s.lists.push items } := by
  refine ⟨fun ref v hv => ?_, h.fields⟩
  have hl := h.elements ref
  simp only [State.list, Array.getD_eq_getD_getElem?, Array.getElem?_push] at hv hl
  split at hv
  · exact hi v hv
  · exact hl v hv

theorem Stored.pushFields (h : Stored good s) {fields : List (String × Value)}
    (hf : ∀ entry ∈ fields, good entry.2) :
    Stored good { s with objects := s.objects.push fields } := by
  refine ⟨h.elements, fun ref entry he => ?_⟩
  have ho := h.fields ref
  simp only [State.object, Array.getD_eq_getD_getElem?, Array.getElem?_push] at he ho
  split at he
  · exact hf entry he
  · exact ho entry he

/-- A list may be changed in a way that brings nothing new but what has the property. -/
theorem Stored.changeList (h : Stored good s) (ref : Nat) {f : Array Value → Array Value}
    (hf : ∀ items, (∀ v ∈ items, good v) → ∀ v ∈ f items, good v) :
    Stored good { s with lists := s.lists.modify ref f } := by
  refine ⟨fun ref' v hv => ?_, h.fields⟩
  have hl := h.elements ref'
  simp only [State.list, Array.getD_eq_getD_getElem?, Array.getElem?_modify] at hv hl
  split at hv
  · cases hx : s.lists[ref']? with
    | none =>
      rw [hx] at hv
      simp at hv
    | some items =>
      rw [hx] at hv hl
      exact hf items hl v hv
  · exact hl v hv

theorem Stored.changeObject (h : Stored good s) (ref : Nat)
    {f : List (String × Value) → List (String × Value)}
    (hf : ∀ fields, (∀ entry ∈ fields, good entry.2) → ∀ entry ∈ f fields, good entry.2) :
    Stored good { s with objects := s.objects.modify ref f } := by
  refine ⟨h.elements, fun ref' entry he => ?_⟩
  have ho := h.fields ref'
  simp only [State.object, Array.getD_eq_getD_getElem?, Array.getElem?_modify] at he ho
  split at he
  · cases hx : s.objects[ref']? with
    | none =>
      rw [hx] at he
      simp at he
    | some fields =>
      rw [hx] at he ho
      exact hf fields ho entry he
  · exact ho entry he

end

/-! ## Operations -/

/-- The operation leaves the variables as they are, the property goes on to hold of all that is
stored, `post` holds of its result, and its faults are ordinary. -/
def Keeps {α : Type} (good : Value → Prop) (post : α → Prop) (x : Run α) : Prop :=
  ∀ s, Stored good s →
    match x s with
    | .ok a t => t.frames = s.frames ∧ Stored good t ∧ post a
    | .error e _ => ∀ f, e = .fault f → f.Ordinary

namespace Keeps

variable {good : Value → Prop} {α β : Type} {post : α → Prop} {after : β → Prop} {x : Run α}
  {f : α → Run β}

theorem of_pure {a : α} (h : post a) : Keeps good post (pure a : Run α) := fun _ hs => ⟨rfl, hs, h⟩

theorem of_fault {e : Fault} (h : e.Ordinary) : Keeps good post (fault e : Run α) := by
  rintro s - f ⟨⟩
  exact h

/-- An operation that does not look at the state keeps what is stored. -/
theorem of_orFault {r : Except Fault α} (h : Ends post Fault.Ordinary r) :
    Keeps good post (orFault r) := by
  cases r with
  | ok a => exact of_pure h
  | error e => exact of_fault h

/-- The second part finds what the first has kept. -/
theorem bind (hx : Keeps good post x) (hf : ∀ a, post a → Keeps good after (f a)) :
    Keeps good after (x >>= f) := by
  intro s hs
  have h := hx s hs
  cases hr : x s with
  | ok a t =>
    rw [hr] at h
    obtain ⟨ht, hst, ha⟩ := h
    rw [bind_of_ok hr, ← ht]
    exact hf a ha t hst
  | error e t =>
    rw [hr] at h
    rw [bind_of_error hr]
    exact h

/-- What is read from the state has the property. -/
theorem get_bind {f : State → Run β} (hf : ∀ s, Stored good s → Keeps good after (f s)) :
    Keeps good after (get >>= f) :=
  fun s hs => hf s hs s hs

theorem of_modifyGet {g : State → α × State} (hf : ∀ s, (g s).2.frames = s.frames)
    (hg : ∀ s, Stored good s → Stored good (g s).2 ∧ post (g s).1) :
    Keeps good post (modifyGet g : Run α) :=
  fun s hs => ⟨hf s, hg s hs⟩

theorem of_modify {g : State → State} (hf : ∀ s, (g s).frames = s.frames)
    (hg : ∀ s, Stored good s → Stored good (g s)) :
    Keeps good (fun _ => True) (modify g : Run PUnit) :=
  of_modifyGet hf fun s hs => ⟨hg s hs, trivial⟩

end Keeps

open Keeps

section

variable {good : Value → Prop}

theorem newFields_keeps {fields : List (String × Value)} (h : ∀ entry ∈ fields, good entry.2) :
    Keeps good (fun _ => True) (newFields fields) :=
  of_modifyGet (fun _ => rfl) fun _ hs => ⟨hs.pushFields h, trivial⟩

theorem changeList_keeps (ref : Nat) {f : Array Value → Array Value}
    (hf : ∀ items, (∀ v ∈ items, good v) → ∀ v ∈ f items, good v) :
    Keeps good (fun _ => True) (changeList ref f) :=
  of_modify (fun _ => rfl) fun _ hs => hs.changeList ref hf

theorem changeObject_keeps (ref : Nat) {f : List (String × Value) → List (String × Value)}
    (hf : ∀ fields, (∀ entry ∈ fields, good entry.2) → ∀ entry ∈ f fields, good entry.2) :
    Keeps good (fun _ => True) (changeObject ref f) :=
  of_modify (fun _ => rfl) fun _ hs => hs.changeObject ref hf

theorem emit_keeps (pieces : List Value) : Keeps good (fun _ => True) (emit pieces) :=
  of_modify (fun _ => rfl) fun _ hs => ⟨hs.elements, hs.fields⟩

/-! ### Operators

From here on all data has the property. -/

variable (hd : ∀ v, v.IsData → good v)
include hd

theorem newList_keeps {items : Array Value} (h : ∀ v ∈ items, good v) :
    Keeps good good (newList items) :=
  of_modifyGet (fun _ => rfl) fun _ hs => ⟨hs.pushList h, hd _ rfl⟩

theorem newObject_keeps {fields : List (String × Value)} (h : ∀ entry ∈ fields, good entry.2) :
    Keeps good good (newObject fields) :=
  (newFields_keeps h).bind fun _ _ => of_pure (hd _ rfl)

theorem of_data {r : Except Fault Value} (h : Ends Value.IsData Fault.Ordinary r) :
    Keeps good good (orFault r) :=
  of_orFault (h.imp hd)

omit hd in
/-- A repetition has no elements of its own. -/
theorem mem_repeated {items : Array Value} {n : Nat} {v : Value} (h : v ∈ repeated items n) :
    v ∈ items := by
  unfold repeated at h
  induction n with
  | zero => simp at h
  | succ n ih =>
    rw [Nat.fold_succ, Array.mem_append] at h
    exact h.elim ih id

theorem repeatSequence_keeps {sequence : Value} (hs : good sequence) (n : Int) :
    Keeps good good (repeatSequence sequence n) := by
  cases sequence with
  | text t => exact (of_orFault (repetitions_ends _ _)).bind fun _ _ => of_pure (hd _ rfl)
  | list ref =>
    refine get_bind fun s hs => (of_orFault (repetitions_ends _ _)).bind fun _ _ => ?_
    exact newList_keeps hd fun v hv => hs.elements ref v (mem_repeated hv)
  | _ => exact of_pure hs

/-- A sum of lists holds what the two hold. -/
theorem sum_keeps (op : String) (a b : Value) : Keeps good good (sum op a b) := by
  unfold sum
  split
  · exact of_pure (hd _ rfl)
  · refine get_bind fun s hs => newList_keeps hd fun v hv => ?_
    rcases Array.mem_append.1 hv with hv | hv
    · exact hs.elements _ v hv
    · exact hs.elements _ v hv
  · exact of_fault rfl
  · exact of_fault rfl
  · split
    · exact of_data hd (plainArith_ends _ _ _ _)
    · exact of_fault rfl

theorem difference_keeps (op : String) (a b : Value) : Keeps good good (difference op a b) := by
  unfold difference
  split
  · exact of_data hd (plainArith_ends _ _ _ _)
  · exact of_fault rfl

/-- A product may be a repetition, of the one value or the other. -/
theorem product_keeps (op : String) {a b : Value} (ha : good a) (hb : good b) :
    Keeps good good (product op a b) := by
  unfold product
  split
  · exact of_data hd (plainArith_ends _ _ _ _)
  split
  · split
    · exact repeatSequence_keeps hd ha _
    · exact of_fault rfl
  split
  · split
    · exact repeatSequence_keeps hd hb _
    · exact of_fault rfl
  · exact of_fault rfl

theorem arith_keeps (op : ArithOp) {a b : Value} (ha : good a) (hb : good b) :
    Keeps good good (arith op a b) := by
  cases op with
  | add => exact sum_keeps hd _ _ _
  | sub => exact difference_keeps hd _ _ _
  | mul => exact product_keeps hd _ ha hb
  | div => exact of_data hd (divide_ends _ _)
  | mod => exact of_data hd (remainder_ends _ _)

theorem orderTest_keeps (op : OrderOp) (a b : Value) : Keeps good good (orderTest op a b) :=
  get_bind fun s _ => (of_orFault (ordered_ends s op a b)).bind fun _ _ => of_pure (hd _ rfl)

/-- All operators make data, but `and` and `or` give back one of the two values. -/
theorem binary_keeps (op : BinaryOp) {a b : Value} (ha : good a) (hb : good b) :
    Keeps good good (binary op a b) := by
  cases op with
  | add | sub | mul | div | mod =>
    rw [binary]
    exact arith_keeps hd _ ha hb
  | lt | le | gt | ge => exact orderTest_keeps hd _ _ _
  | eq | ne =>
    refine get_bind fun s _ => (of_orFault (equal_ends s a b)).bind fun _ _ => ?_
    exact of_pure (hd _ rfl)
  | bitAnd | bitXor => exact of_data hd (bitwise_ends _ _ _ _ _)
  | bitOr => exact of_data hd (bitOr_ends _ _)
  | shiftLeft => exact of_data hd (shift_ends _ shiftLeft_ends _ _)
  | shiftRight =>
    have h : ∀ m n, Ends Value.IsData Fault.Ordinary (.ok (shiftRight m n)) := shiftRight_isData
    exact of_data hd (shift_ends _ h _ _)
  | and | or =>
    refine get_bind fun _ _ => of_pure ?_
    split
    · assumption
    · assumption

theorem sign_keeps (op : SignOp) (v : Value) : Keeps good good (sign op v) := by
  cases op with
  | not => exact get_bind fun _ _ => of_pure (hd _ rfl)
  | plus | minus =>
    unfold sign
    dsimp only
    split
    · exact of_pure (hd _ rfl)
    · exact of_pure (hd _ rfl)
    · exact of_fault rfl
  | complement =>
    unfold sign
    dsimp only
    split
    · exact of_pure (hd _ rfl)
    · exact of_fault rfl

/-- The elements of a list have the property since they are stored, those of a text are data. -/
theorem elements_keeps (v : Value) :
    Keeps good (fun items => ∀ v ∈ items, good v) (elements v) := by
  cases v with
  | list ref => exact get_bind fun s hs => of_pure (hs.elements ref)
  | text t =>
    refine of_pure fun v hv => ?_
    obtain ⟨c, -, rfl⟩ := List.mem_map.1 (List.mem_toArray.1 hv)
    exact hd _ rfl
  | _ => exact of_fault rfl

/-- A compound assignment that changes a list in place gives back that list. -/
theorem inPlace_keeps (op : ArithOp) {old v : Value} (ho : good old) (hv : good v) :
    Keeps good good (inPlace op old v) := by
  unfold inPlace
  split
  · -- the list grows by elements that were stored elsewhere, or by characters
    refine (elements_keeps hd v).bind fun more hm => ?_
    refine (changeList_keeps _ fun items hi w hw => ?_).bind fun _ _ => of_pure ho
    exact (Array.mem_append.1 hw).elim (hi w) (hm w)
  · split
    · refine get_bind fun s hs => (of_orFault (repetitions_ends _ _)).bind fun _ _ => ?_
      refine (changeList_keeps _ fun items hi w hw => ?_).bind fun _ _ => of_pure ho
      exact hi w (mem_repeated hw)
    · exact of_fault rfl
  · exact sum_keeps hd _ _ _
  · exact difference_keeps hd _ _ _
  · exact product_keeps hd _ ho hv
  · exact arith_keeps hd _ ho hv

/-! ### Elements and fields -/

/-- An element is stored, or it is a character. -/
theorem getItem_ends {s : State} (hs : Stored good s) (owner key : Value) :
    Ends good Fault.Ordinary (getItem s owner key) := by
  unfold getItem
  split
  · rename_i ref
    split
    · exact rfl
    split
    · exact rfl
    split
    · rename_i v hv
      obtain ⟨i, -, hi⟩ := Option.bind_eq_some_iff.1 hv
      exact hs.elements ref v (Array.mem_of_getElem? hi)
    · exact rfl
  · split
    · exact rfl
    split
    · exact rfl
    split
    · exact hd _ rfl
    · exact rfl
  · split <;> exact rfl
  · exact rfl

omit hd in
theorem lookup_mem {fields : List (String × Value)} {field : String} {v : Value}
    (h : fields.lookup field = some v) : (field, v) ∈ fields := by
  obtain ⟨before, after, rfl, -⟩ := List.lookup_eq_some_iff.1 h
  simp

/-- A field is stored, and a method is data. -/
theorem getAttr_ends {s : State} (hs : Stored good s) (owner : Value) (field : String) :
    Ends good Fault.Ordinary (getAttr s owner field) := by
  unfold getAttr
  split
  · exact rfl
  split
  · split
    · exact hs.fields _ _ (lookup_mem ‹_›)
    · exact missingAttr_ordinary _ _
  · split
    · exact hs.fields _ _ (lookup_mem ‹_›)
    · exact missingAttr_ordinary _ _
  · exact hd _ rfl
  · exact hd _ rfl
  · exact hd _ rfl
  · exact missingAttr_ordinary _ _

omit hd in
/-- A store to an element brings nothing into a list but the value stored. -/
theorem setItem_keeps (owner key : Value) {v : Value} (hv : good v) :
    Keeps good (fun _ => True) (setItem owner key v) := by
  refine get_bind fun s _ => (of_orFault (itemCell_ends s owner key)).bind fun cell _ => ?_
  refine changeList_keeps _ fun items hi w hw => ?_
  rcases Array.mem_or_eq_of_mem_setIfInBounds hw with hw | rfl
  · exact hi w hw
  · exact hv

omit hd in
theorem withField_good {v : Value} (hv : good v) (field : String) :
    ∀ fields : List (String × Value), (∀ entry ∈ fields, good entry.2) →
      ∀ entry ∈ withField fields field v, good entry.2
  | [], _, entry, he => by
    rw [withField, List.mem_singleton] at he
    rwa [he]
  | (f, old) :: rest, hf, entry, he => by
    obtain ⟨hold, hrest⟩ := List.forall_mem_cons.1 hf
    rw [withField] at he
    split at he
    · rcases List.mem_cons.1 he with rfl | he
      · exact hv
      · exact hrest entry he
    · rcases List.mem_cons.1 he with rfl | he
      · exact hold
      · exact withField_good hv field rest hrest entry he

omit hd in
theorem setAttr_keeps (owner : Value) (field : String) {v : Value} (hv : good v) :
    Keeps good (fun _ => True) (setAttr owner field v) :=
  (of_orFault (attrCell_ends owner field)).bind fun ref _ =>
    changeObject_keeps ref fun fields hf => withField_good hv field fields hf

omit hd in
theorem storeItem_keeps (owner key : Value) {v : Value} (hv : good v) :
    Keeps good good (storeItem owner key v) :=
  (setItem_keeps owner key hv).bind fun _ _ => of_pure hv

omit hd in
theorem storeAttr_keeps (owner : Value) (field : String) {v : Value} (hv : good v) :
    Keeps good good (storeAttr owner field v) :=
  (setAttr_keeps owner field hv).bind fun _ _ => of_pure hv

/-- An update stores and gives back what it has read or made of it. -/
theorem updateItem_keeps (owner key : Value) {combine : Value → Run Value} (keepsOld : Bool)
    (hc : ∀ v, good v → Keeps good good (combine v)) :
    Keeps good good (updateItem owner key combine keepsOld) := by
  refine get_bind fun s hs => (of_orFault (getItem_ends hd hs owner key)).bind fun old ho => ?_
  refine (hc old ho).bind fun new hn => (setItem_keeps owner key hn).bind fun _ _ => ?_
  -- without the old value the element is read once more, from the state after the store
  split
  · exact of_pure ho
  · exact get_bind fun s hs => of_orFault (getItem_ends hd hs owner key)

theorem updateAttr_keeps (owner : Value) (field : String) {combine : Value → Run Value}
    (keepsOld : Bool) (hc : ∀ v, good v → Keeps good good (combine v)) :
    Keeps good good (updateAttr owner field combine keepsOld) := by
  refine get_bind fun s hs => (of_orFault (getAttr_ends hd hs owner field)).bind fun old ho => ?_
  refine (hc old ho).bind fun new hn => (setAttr_keeps owner field hn).bind fun _ _ => ?_
  split
  · exact of_pure ho
  · exact get_bind fun s hs => of_orFault (getAttr_ends hd hs owner field)

omit hd in
theorem defaultElement_isData (typeName : String) : (defaultElement typeName).IsData := by
  unfold defaultElement
  split <;> exact rfl

/-- A new array holds copies of one element that is data. -/
theorem newArray_keeps (size : Value) (typeName : String) :
    Keeps good good (newArray size typeName) := by
  refine (of_orFault (integerOf_ends size)).bind fun n _ => ?_
  refine (of_orFault (repetitions_ends 1 n)).bind fun count _ => newList_keeps hd fun v hv => ?_
  rw [Array.eq_of_mem_replicate hv]
  exact hd _ (defaultElement_isData typeName)

theorem newInstance_keeps (typeName : String) : Keeps good good (newInstance (.text typeName)) :=
  newObject_keeps hd fun entry he => by
    rw [List.mem_singleton.1 he]
    exact hd _ rfl

/-! ### Built-in functions -/

omit hd in
/-- The greatest or least of some values is one of them. -/
theorem extreme_keeps (op : OrderOp) {best : Value} (hb : good best) (vs : List Value)
    (hv : ∀ v ∈ vs, good v) : Keeps good good (extreme op best vs) := by
  induction vs generalizing best with
  | nil => exact of_pure hb
  | cons v rest ih =>
    obtain ⟨hfirst, hrest⟩ := List.forall_mem_cons.1 hv
    refine get_bind fun s _ => (of_orFault (ordered_ends s op v best)).bind fun _ _ => ?_
    split
    · exact ih hfirst hrest
    · exact ih hb hrest

theorem extremeOf_keeps (name : String) (op : OrderOp) (args : List Value)
    (ha : ∀ v ∈ args, good v) : Keeps good good (extremeOf name op args) := by
  unfold extremeOf
  split
  · exact of_fault rfl
  · refine (elements_keeps hd _).bind fun items hi => ?_
    split
    · exact of_fault rfl
    · rename_i first rest he
      obtain ⟨hfirst, hrest⟩ := List.forall_mem_cons.1
        (fun v hv => hi v (Array.mem_toList_iff.1 (he ▸ hv)))
      exact extreme_keeps op hfirst rest hrest
  · obtain ⟨hfirst, hrest⟩ := List.forall_mem_cons.1 ha
    exact extreme_keeps op hfirst _ hrest

theorem sumFrom_keeps {total : Value} (ht : good total) (vs : List Value) :
    Keeps good good (sumFrom total vs) := by
  induction vs generalizing total with
  | nil => exact of_pure ht
  | cons v rest ih => exact (sum_keeps hd _ _ _).bind fun _ h => ih h

/-- A sum starts from zero or from an argument. -/
theorem sumOf_keeps (args : List Value) (ha : ∀ v ∈ args, good v) :
    Keeps good good (sumOf args) := by
  unfold sumOf
  split
  · exact of_fault rfl
  · exact (elements_keeps hd _).bind fun _ _ => sumFrom_keeps hd (hd (.int 0) rfl) _
  · refine (elements_keeps hd _).bind fun _ _ => ?_
    split
    · exact of_fault rfl
    · exact sumFrom_keeps hd (ha _ (List.mem_cons_of_mem _ List.mem_cons_self)) _
  · exact of_fault rfl

theorem powerOf_keeps (args : List Value) : Keeps good good (powerOf args) := by
  unfold powerOf
  split
  · exact of_fault rfl
  · exact of_fault rfl
  · exact of_data hd (plainPower_ends _ _)
  · exact of_data hd (plainPower_ends _ _)
  · exact of_data hd (modularPower_ends _ _ _)
  · exact of_fault rfl

theorem absolute_keeps (v : Value) : Keeps good good (absolute v) := by
  unfold absolute
  split
  · exact of_pure (hd _ rfl)
  · exact of_pure (hd _ rfl)
  · exact of_fault rfl

theorem lengthOf_keeps (v : Value) : Keeps good good (lengthOf v) := by
  cases v with
  | text t => exact of_pure (hd _ rfl)
  | list ref => exact get_bind fun _ _ => of_pure (hd _ rfl)
  | _ => exact of_fault rfl

omit hd in
theorem printText_keeps (t : String) : Keeps good (fun _ => True) (printText t) :=
  of_modify (fun _ => rfl) fun _ hs => ⟨hs.elements, hs.fields⟩

omit hd in
theorem printValues_keeps (gap : String) (vs : List Value) :
    Keeps good (fun _ => True) (printValues gap vs) := by
  induction vs generalizing gap with
  | nil => exact of_pure trivial
  | cons v rest ih =>
    refine (printText_keeps gap).bind fun _ _ => get_bind fun s _ => ?_
    refine (of_orFault (asText_ends s v)).bind fun t _ => ?_
    exact (printText_keeps t).bind fun _ _ => ih " "

theorem printLine_keeps (args : List Value) : Keeps good good (printLine args) :=
  (printValues_keeps "" args).bind fun _ _ => (printText_keeps _).bind fun _ _ => of_pure (hd _ rfl)

/-- A built-in function gives back data, or one of its arguments or of what they hold. -/
theorem callBuiltin_keeps (b : Builtin) (args : List Value) (ha : ∀ v ∈ args, good v) :
    Keeps good good (callBuiltin b args) := by
  unfold callBuiltin
  split
  · exact extremeOf_keeps hd _ _ _ ha
  · exact extremeOf_keeps hd _ _ _ ha
  · exact absolute_keeps hd _
  · exact lengthOf_keeps hd _
  · exact powerOf_keeps hd _
  · exact sumOf_keeps hd _ ha
  · exact printLine_keeps hd _
  · exact of_pure (hd _ rfl)
  · exact (of_orFault (integerOf_ends _)).bind fun _ _ => of_pure (hd _ rfl)
  · exact of_pure (hd _ rfl)
  · exact of_data hd (floatOf_ends _)
  · exact of_pure (hd _ rfl)
  · exact get_bind fun s _ => (of_orFault (asText_ends s _)).bind fun _ _ => of_pure (hd _ rfl)
  · exact of_data hd (integerInBase_ends _ _)
  all_goals exact of_fault rfl

/-- A method gives back data, and only the one that appends stores an argument. -/
theorem callMethod_keeps (m : Method) (args : List Value) (ha : ∀ v ∈ args, good v) :
    Keeps good good (callMethod m args) := by
  unfold callMethod
  split
  · exact of_pure (hd _ rfl)
  · exact of_pure (hd _ rfl)
  · refine (changeList_keeps _ fun items hi w hw => ?_).bind fun _ _ => of_pure (hd _ rfl)
    rcases Array.mem_push.1 hw with hw | rfl
    · exact hi w hw
    · exact ha _ (by simp)
  all_goals exact of_fault rfl

/-! ### Input and output -/

omit hd in
theorem number_isData (word : String) : (number word).IsData := by
  unfold number
  split <;> exact rfl

/-- Words of the input are read as numbers, so a read makes data. -/
theorem nextInput_keeps : Keeps good good nextInput := by
  refine get_bind fun s _ => ?_
  split
  · exact of_fault rfl
  · rename_i word rest _
    have hm : Keeps good (fun _ => True) (modify fun t => { t with input := rest } : Run PUnit) :=
      of_modify (fun _ => rfl) fun _ ht => ⟨ht.elements, ht.fields⟩
    exact hm.bind fun _ _ => of_pure (hd _ (number_isData word))

theorem shown_keeps (v : Value) : Keeps good good (shown v) :=
  get_bind fun s _ => (of_orFault (shown_ends s v)).bind fun _ _ => of_pure (hd _ rfl)

end

end ConsoleCpp.Machine
