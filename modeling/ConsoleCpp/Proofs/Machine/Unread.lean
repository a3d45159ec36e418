/-
Words of the input that a run does not read are invisible to it. A run from a state with more words
at the end of its input takes the same steps and leaves the additional words where they are, unless
the run without them stops for want of a word. Only the reading of a word looks at the input, so each
operation of the machine is shown to keep to this, and a whole run is put together from them: by the
tree for expressions and statements, by the rounds for loops, by the depth for calls. That nothing
else in a program has the input at hand is a fact about its variables: none of them is the input.
-/
import ConsoleCpp.Compile
import ConsoleCpp.Machine.Program
import ConsoleCpp.Proofs.Machine.Runs
import ConsoleCpp.Proofs.Names.Hygiene
import Mathlib

namespace ConsoleCpp.Machine

/-! ## Surroundings

Besides the words of its input, a run is given the addresses of functions and lists. It may be given
more words and more addresses. -/

/-- What is known of addresses here is known there. -/
structure Addresses.Refined (here there : Addresses) : Prop where
  function : ∀ ref n, here.function ref = some n → there.function ref = some n
  list : ∀ ref n, here.list ref = some n → there.list ref = some n

/-- All addresses are known. -/
structure Addresses.Known (here : Addresses) : Prop where
  function : ∀ ref, (here.function ref).isSome
  list : ∀ ref, (here.list ref).isSome

/-- The state with more words at the end of its input, and with these addresses. -/
def State.more (s : State) (words : List String) (there : Addresses) : State :=
  { s with input := s.input ++ words, addresses := there }

/-! ## Looking at a state -/

section

variable (s : State) (words : List String) (there : Addresses)

/-- Values are compared without regard to where they are kept. -/
theorem equalTo_more (depth : Nat) : equalTo (s.more words there) depth = equalTo s depth := by
  induction depth with
  | zero => rfl
  | succ depth ih =>
    funext a b
    cases a <;> cases b <;> simp only [equalTo, ih] <;> rfl

theorem equal_more : (s.more words there).equal = s.equal := equalTo_more s words there s.pairDepth

/-- Nor are lists compared by more than what is in them. -/
theorem firstDifference_more : ∀ as bs : List Value,
    firstDifference (s.more words there) as bs = firstDifference s as bs
  | [], _ | _ :: _, [] => rfl
  | a :: as, b :: bs => by
    rw [firstDifference, firstDifference, equal_more, firstDifference_more as bs]

/-- The order of two values is that of what they hold, down to any depth. -/
theorem orderedTo_more (op : OrderOp) (depth : Nat) :
    orderedTo (s.more words there) op depth = orderedTo s op depth := by
  induction depth with
  | zero => rfl
  | succ depth ih =>
    funext a b
    cases a <;> cases b <;> simp only [orderedTo, ih, firstDifference_more]
    rfl

theorem ordered_more : (s.more words there).ordered = s.ordered := by
  funext op
  exact orderedTo_more s words there op s.pairDepth

/-- A name is looked up in the frames around the function, and these hold no words of the input. -/
theorem freeVariable_more (id : String) (env : List Nat) :
    freeVariable (s.more words there) id env = freeVariable s id env := by
  induction env with
  | nil => rfl
  | cons frame rest ih =>
    rw [freeVariable, freeVariable, ih]
    rfl

theorem lookup_more (id : String) (env : List Nat) :
    lookup (s.more words there) id env = lookup s id env := by
  cases env with
  | nil => rfl
  | cons frame rest =>
    rw [lookup, lookup, freeVariable_more]
    rfl

end

/-- The one ends like the other, unless the other wants an address that is not known. -/
def Follows {α : Type} (here : Addresses) (r r' : Except Fault α) : Prop :=
  r = .error (.undescribed .address) ∧ ¬here.Known ∨ r' = r

namespace Follows

variable {α β : Type} {here : Addresses} {r r' : Except Fault α} {f f' : α → Except Fault β}

theorem refl : Follows here r r := .inr rfl

theorem bind (hr : Follows here r r') (hf : ∀ a, Follows here (f a) (f' a)) :
    Follows here (r >>= f) (r' >>= f') := by
  rcases hr with ⟨rfl, hh⟩ | rfl
  · exact .inl ⟨rfl, hh⟩
  · cases r' with
    | ok a => exact hf a
    | error e => exact .refl

theorem mapM {f f' : α → Except Fault β} (hf : ∀ a, Follows here (f a) (f' a)) :
    ∀ as : List α, Follows here (as.mapM f) (as.mapM f')
  | [] => .refl
  | a :: as => by
    rw [List.mapM_cons, List.mapM_cons]
    exact (hf a).bind fun _ => (mapM hf as).bind fun _ => .refl

end Follows

section

variable {s : State} {there : Addresses} (h : s.addresses.Refined there) (words : List String)
include h

omit h words in
/-- An address that is known is written the same there. -/
theorem writeAddress_follows {known : Nat → Option Nat} {ref : Nat} {address : Option Nat}
    (hk : s.addresses.Known → (known ref).isSome) (ha : ∀ n, known ref = some n → address = some n) :
    Follows s.addresses (writeAddress (known ref)) (writeAddress address) := by
  cases hn : known ref with
  | none =>
    -- the text is not known here, and then not all addresses are
    refine .inl ⟨rfl, fun hall => ?_⟩
    have := hk hall
    rw [hn] at this
    cases this
  | some n =>
    rw [ha n hn]
    exact .refl

/-- Only a method of a list is written with the address of its list. -/
theorem listedMethod_follows (m : Method) :
    Follows s.addresses (listedMethod s m) (listedMethod (s.more words there) m) := by
  cases m with
  | append ref =>
    exact (writeAddress_follows (fun hall => hall.list ref) (h.list ref)).bind fun _ => .refl
  | upper t | lower t => exact .refl

/-- The text of a value has addresses of the functions and methods in it and of nothing else. -/
theorem listed_follows : ∀ (depth : Nat) (openLists openObjects : List Nat) (v : Value),
    Follows s.addresses (listed s depth openLists openObjects v)
      (listed (s.more words there) depth openLists openObjects v)
  | 0, _, _, _ => .refl
  | depth + 1, openLists, openObjects, v => by
    have ih := listed_follows depth
    cases v with
    | list ref =>
      simp only [listed]
      split
      · exact .refl
      · exact (Follows.mapM (fun _ => ih _ _ _) _).bind fun _ => .refl
    | object ref =>
      simp only [listed]
      split
      · exact .refl
      · refine (Follows.mapM (fun _ => ?_) _).bind fun _ => .refl
        exact (ih _ _ _).bind fun _ => .refl
    | function f =>
      exact (writeAddress_follows (fun hall => hall.function f.ref) (h.function f.ref)).bind
        fun _ => .refl
    | method m => exact listedMethod_follows h words m
    | _ => exact .refl

/-- A text is its own text, with no address in it. -/
theorem asText_follows (v : Value) :
    Follows s.addresses (s.asText v) ((s.more words there).asText v) := by
  cases v with
  | text t => exact .refl
  | _ => exact listed_follows h words _ _ _ _

/-- A list of the outermost level is shown by its elements, one after another. -/
theorem shownTo_follows : ∀ (depth : Nat) (v : Value),
    Follows s.addresses (shownTo s depth v) (shownTo (s.more words there) depth v)
  | 0, _ => .refl
  | depth + 1, v => by
    cases v with
    | list ref => exact (Follows.mapM (shownTo_follows depth) _).bind fun _ => .refl
    | none | bool _ | float _ => exact .refl
    | _ =>
      simp only [shownTo]
      exact asText_follows h words _

theorem shown_follows (v : Value) :
    Follows s.addresses (s.shown v) ((s.more words there).shown v) :=
  shownTo_follows h words s.depth v

end

/-! ## Runs that do not look at what they do not read -/

/-- A run stops so for want of a word or of an address. -/
def Wants (here : Addresses) (e : Stop) : Prop :=
  e = .fault .inputExhausted ∨ e = .fault (.undescribed .address) ∧ ¬here.Known

/-- With more words at the end of the input and more addresses the run does the same, and the words
are still there, unless the run stops for want of a word or of an address. -/
def Unaffected {α : Type} (x : Run α) : Prop :=
  ∀ (s : State) (words : List String) (there : Addresses), s.addresses.Refined there →
    match x s with
    | .ok a t => t.addresses = s.addresses ∧ x (s.more words there) = .ok a (t.more words there)
    | .error e t => Wants s.addresses e ∨ x (s.more words there) = .error e (t.more words there)

namespace Unaffected

variable {α β : Type} {x : Run α} {f : α → Run β}

/-- A value that is at hand is no matter of the state. -/
theorem of_pure (a : α) : Unaffected (pure a : Run α) := fun _ _ _ _ => ⟨rfl, rfl⟩

theorem of_throw (e : Stop) : Unaffected (throw e : Run α) := fun _ _ _ _ => .inr rfl

theorem of_fault (e : Fault) : Unaffected (fault e : Run α) := of_throw _

/-- What is computed from values alone ends the same from any state. -/
theorem of_orFault (r : Except Fault α) : Unaffected (orFault r) := by
  cases r with
  | ok a => exact of_pure a
  | error e => exact of_fault e

/-- The second part finds the additional words where the first has left them. -/
theorem bind (hx : Unaffected x) (hf : ∀ a, Unaffected (f a)) : Unaffected (x >>= f) := by
  intro s words there hr
  have hs := hx s words there hr
  cases h : x s with
  | ok a t =>
    rw [h] at hs
    obtain ⟨ht, hs⟩ := hs
    rw [bind_of_ok h, bind_of_ok hs, ← ht]
    exact hf a t words there (ht ▸ hr)
  | error e t =>
    rw [h] at hs
    rw [bind_of_error h]
    exact hs.imp_right bind_of_error

/-- What is done with the state must not depend on its input or on addresses. -/
theorem get_bind {f : State → Run β} (hs : ∀ s words there, f (s.more words there) = f s)
    (hf : ∀ s, Unaffected (f s)) : Unaffected (get >>= f) := by
  intro s words there hr
  change match f s s with
    | .ok a t => t.addresses = s.addresses ∧
        f (s.more words there) (s.more words there) = .ok a (t.more words there)
    | .error e t => Wants s.addresses e ∨
        f (s.more words there) (s.more words there) = .error e (t.more words there)
  rw [hs]
  exact hf s s words there hr

/-- What is seen of the state may depend on addresses. -/
theorem get_orFault {r : State → Except Fault α}
    (hr : ∀ {s there}, s.addresses.Refined there → ∀ words,
      Follows s.addresses (r s) (r (s.more words there)))
    (hf : ∀ a, Unaffected (f a)) : Unaffected (get >>= fun s => orFault (r s) >>= f) := by
  intro s words there h
  change match (orFault (r s) >>= f) s with
    | .ok a t => t.addresses = s.addresses ∧
        (orFault (r (s.more words there)) >>= f) (s.more words there) = .ok a (t.more words there)
    | .error e t => Wants s.addresses e ∨
        (orFault (r (s.more words there)) >>= f) (s.more words there) =
          .error e (t.more words there)
  -- the run ends here for want of an address, or sees there what it sees here
  rcases hr h words with ⟨hwants, hh⟩ | hsame
  · rw [hwants]
    exact .inl (.inr ⟨rfl, hh⟩)
  · rw [hsame]
    exact (of_orFault (r s)).bind hf s words there h

/-- A change of the state must keep the addresses and leave additional words where they are. -/
theorem of_modifyGet {f : State → α × State} (ha : ∀ s, (f s).2.addresses = s.addresses)
    (hf : ∀ s words there, f (s.more words there) = ((f s).1, (f s).2.more words there)) :
    Unaffected (modifyGet f : Run α) := by
  intro s words there _
  refine ⟨ha s, ?_⟩
  change (EStateM.Result.ok (f (s.more words there)).1 (f (s.more words there)).2 :
    EStateM.Result Stop State α) = _
  rw [hf]

theorem of_modify {f : State → State} (ha : ∀ s, (f s).addresses = s.addresses)
    (hf : ∀ s words there, f (s.more words there) = (f s).more words there) :
    Unaffected (modify f : Run PUnit) :=
  of_modifyGet ha fun s words there => by rw [hf]

end Unaffected

/-! ## Lists and objects -/

open Unaffected

/-- A new list is put behind the others and has its number from how many these are. -/
theorem newList_unaffected (items : Array Value) : Unaffected (newList items) :=
  of_modifyGet (fun _ => rfl) fun _ _ _ => rfl

theorem newFields_unaffected (fields : List (String × Value)) : Unaffected (newFields fields) :=
  of_modifyGet (fun _ => rfl) fun _ _ _ => rfl

theorem newObject_unaffected (fields : List (String × Value)) : Unaffected (newObject fields) :=
  (newFields_unaffected fields).bind fun _ => of_pure _

theorem changeList_unaffected (ref : Nat) (f : Array Value → Array Value) :
    Unaffected (changeList ref f) :=
  of_modify (fun _ => rfl) fun _ _ _ => rfl

theorem changeObject_unaffected (ref : Nat) (f : List (String × Value) → List (String × Value)) :
    Unaffected (changeObject ref f) :=
  of_modify (fun _ => rfl) fun _ _ _ => rfl

/-! ## Operators -/

/-- A list that is repeated is read from the state, a text is not. -/
theorem repeatSequence_unaffected (sequence : Value) (n : Int) :
    Unaffected (repeatSequence sequence n) := by
  cases sequence with
  | text t => exact (of_orFault _).bind fun _ => of_pure _
  | list ref =>
    exact get_bind (fun _ _ _ => rfl) fun _ => (of_orFault _).bind fun _ => newList_unaffected _
  | _ => exact of_pure _

/-- Two lists are joined to a new one; all else that can be added is numbers and texts. -/
theorem sum_unaffected (op : String) (a b : Value) : Unaffected (sum op a b) := by
  unfold sum
  split
  · exact of_pure _
  · exact get_bind (fun _ _ _ => rfl) fun _ => newList_unaffected _
  · exact of_fault _
  · exact of_fault _
  · split
    · exact of_orFault _
    · exact of_fault _

theorem difference_unaffected (op : String) (a b : Value) : Unaffected (difference op a b) := by
  unfold difference
  split
  · exact of_orFault _
  · exact of_fault _

theorem product_unaffected (op : String) (a b : Value) : Unaffected (product op a b) := by
  unfold product
  split
  · exact of_orFault _
  split
  · split
    · exact repeatSequence_unaffected _ _
    · exact of_fault _
  split
  · split
    · exact repeatSequence_unaffected _ _
    · exact of_fault _
  · exact of_fault _

/-- Of the five operators only the division and the remainder have no form that makes a list. -/
theorem arith_unaffected (op : ArithOp) (a b : Value) : Unaffected (arith op a b) := by
  cases op with
  | add => exact sum_unaffected _ _ _
  | sub => exact difference_unaffected _ _ _
  | mul => exact product_unaffected _ _ _
  | div | mod => exact of_orFault _

theorem orderTest_unaffected (op : OrderOp) (a b : Value) : Unaffected (orderTest op a b) :=
  get_bind (fun s words there => by rw [ordered_more]) fun _ =>
    (of_orFault _).bind fun _ => of_pure _

/-- Comparisons look into lists and objects of the state, but not at its input. -/
theorem binary_unaffected (op : BinaryOp) (a b : Value) : Unaffected (binary op a b) := by
  cases op with
  | add | sub | mul | div | mod =>
    rw [binary]
    exact arith_unaffected _ _ _
  | lt | le | gt | ge => exact orderTest_unaffected _ _ _
  | eq | ne =>
    exact get_bind (fun s words there => by rw [equal_more]) fun _ =>
      (of_orFault _).bind fun _ => of_pure _
  | bitAnd | bitOr | bitXor | shiftLeft | shiftRight => exact of_orFault _
  | and | or => exact get_bind (fun _ _ _ => rfl) fun _ => of_pure _

theorem sign_unaffected (op : SignOp) (v : Value) : Unaffected (sign op v) := by
  cases op with
  | not => exact get_bind (fun _ _ _ => rfl) fun _ => of_pure _
  | plus | minus =>
    unfold sign
    dsimp only
    split
    · exact of_pure _
    · exact of_pure _
    · exact of_fault _
  | complement =>
    unfold sign
    dsimp only
    split
    · exact of_pure _
    · exact of_fault _

/-- The elements of a list or the characters of a text. -/
theorem elements_unaffected (v : Value) : Unaffected (elements v) := by
  cases v with
  | list ref => exact get_bind (fun _ _ _ => rfl) fun _ => of_pure _
  | text t => exact of_pure _
  | _ => exact of_fault _

/-- A combined assignment changes a list in place and computes a new value for all else. -/
theorem inPlace_unaffected (op : ArithOp) (old v : Value) : Unaffected (inPlace op old v) := by
  unfold inPlace
  split
  · refine (elements_unaffected v).bind fun _ => ?_
    exact (changeList_unaffected _ _).bind fun _ => of_pure _
  · split
    · refine get_bind (fun _ _ _ => rfl) fun _ => (of_orFault _).bind fun _ => ?_
      exact (changeList_unaffected _ _).bind fun _ => of_pure _
    · exact of_fault _
  · exact sum_unaffected _ _ _
  · exact difference_unaffected _ _ _
  · exact product_unaffected _ _ _
  · exact arith_unaffected _ _ _

/-! ## Elements and fields -/

theorem setItem_unaffected (owner key v : Value) : Unaffected (setItem owner key v) :=
  get_bind (fun _ _ _ => rfl) fun _ => (of_orFault _).bind fun _ => changeList_unaffected _ _

theorem setAttr_unaffected (owner : Value) (field : String) (v : Value) :
    Unaffected (setAttr owner field v) :=
  (of_orFault _).bind fun _ => changeObject_unaffected _ _

/-- The new value is combined from the old one, and read again if it is the result. -/
theorem updateItem_unaffected (owner key : Value) {combine : Value → Run Value} (keepsOld : Bool)
    (hc : ∀ v, Unaffected (combine v)) : Unaffected (updateItem owner key combine keepsOld) := by
  refine get_bind (fun _ _ _ => rfl) fun _ => (of_orFault _).bind fun old => ?_
  refine (hc old).bind fun new => (setItem_unaffected owner key new).bind fun _ => ?_
  split
  · exact of_pure _
  · exact get_bind (fun _ _ _ => rfl) fun _ => of_orFault _

theorem updateAttr_unaffected (owner : Value) (field : String) {combine : Value → Run Value}
    (keepsOld : Bool) (hc : ∀ v, Unaffected (combine v)) :
    Unaffected (updateAttr owner field combine keepsOld) := by
  refine get_bind (fun _ _ _ => rfl) fun _ => (of_orFault _).bind fun old => ?_
  refine (hc old).bind fun new => (setAttr_unaffected owner field new).bind fun _ => ?_
  split
  · exact of_pure _
  · exact get_bind (fun _ _ _ => rfl) fun _ => of_orFault _

theorem newArray_unaffected (size : Value) (typeName : String) :
    Unaffected (newArray size typeName) :=
  (of_orFault _).bind fun _ => (of_orFault _).bind fun _ => newList_unaffected _

/-! ## Built-in functions -/

/-- A name that is declared nonlocal is assigned in the frame that owns it. -/
theorem assign_unaffected (env : List Nat) (id : String) (v : Value) :
    Unaffected (assign env id v) := by
  refine get_bind (fun _ _ _ => rfl) fun s => ?_
  split
  · exact of_modify (fun _ => rfl) fun _ _ _ => rfl
  · exact of_fault _

theorem lookup_unaffected (id : String) (env : List Nat) :
    Unaffected (get >>= fun s => orFault (lookup s id env)) :=
  get_bind (fun s words there => by rw [lookup_more]) fun _ => of_orFault _

theorem nextInput_nil {s : State} (h : s.input = []) :
    nextInput s = .error (.fault .inputExhausted) s := by
  have hg : (get : Run State) s = .ok s s := rfl
  unfold nextInput
  rw [bind_of_ok hg, h]
  rfl

theorem nextInput_cons {s : State} {word : String} {rest : List String}
    (h : s.input = word :: rest) :
    nextInput s = .ok (number word) { s with input := rest } := by
  have hg : (get : Run State) s = .ok s s := rfl
  unfold nextInput
  rw [bind_of_ok hg, h]
  rfl

/-- Only here the input is looked at: as long as there is a word, those after it do not matter. -/
theorem nextInput_unaffected : Unaffected nextInput := by
  intro s words there _
  cases h : s.input with
  | nil =>
    rw [nextInput_nil h]
    exact .inl (.inl rfl)
  | cons word rest =>
    have hm : (s.more words there).input = word :: (rest ++ words) := by
      rw [State.more, h]
      rfl
    rw [nextInput_cons h]
    exact ⟨rfl, nextInput_cons hm⟩

/-- The other operation, besides printing, that can want an address. -/
theorem shown_unaffected (v : Value) : Unaffected (shown v) :=
  get_orFault (fun h words => shown_follows h words v) fun _ => of_pure _

/-- A step is the addition or subtraction of one, undone again for the value before it. -/
theorem stepVariable_unaffected (env : List Nat) (op : StepOp) (keepsOld : Bool) (id : String) :
    Unaffected (stepVariable env op keepsOld id) := by
  refine get_bind (fun s words there => by rw [lookup_more]) fun _ => ?_
  refine (of_orFault _).bind fun old => ?_
  refine (arith_unaffected _ _ _).bind fun new => (assign_unaffected env id new).bind fun _ => ?_
  split
  · cases op with
    | increment | decrement => exact arith_unaffected _ _ _
  · exact of_pure _

/-! ## Expressions -/

section

variable {call : Caller}

mutual

/-- By the tree: an expression is evaluated through its parts, and `.input` alone reads a word. -/
theorem eval_unaffected (hc : ∀ f args, Unaffected (call f args)) (env : List Nat) :
    ∀ e : Target.Expr, Unaffected (eval call env e)
  | .number _ | .bool _ | .nothing => by
    rw [eval]
    exact of_pure _
  | .text _ => by
    rw [eval]
    exact of_orFault _
  | .name id => by
    rw [eval]
    exact lookup_unaffected id env
  | .sign op operand => by
    rw [eval]
    exact (eval_unaffected hc env operand).bind fun _ => sign_unaffected _ _
  | .binary op left right => by
    have hl := eval_unaffected hc env left
    have hr := eval_unaffected hc env right
    cases op with
    | and | or =>
      rw [eval]
      refine hl.bind fun a => get_bind (fun _ _ _ => rfl) fun s => ?_
      split
      · first | exact hr | exact of_pure _
      · first | exact hr | exact of_pure _
    | _ =>
      rw [eval]
      · exact hl.bind fun a => hr.bind fun b => binary_unaffected _ _ _
      · nofun
      · nofun
  | .bind id value => by
    rw [eval]
    refine (eval_unaffected hc env value).bind fun v => ?_
    exact (assign_unaffected env id v).bind fun _ => of_pure _
  | .step op keepsOld id => by
    rw [eval]
    exact stepVariable_unaffected env op keepsOld id
  | .call callee args => by
    rw [eval]
    refine (eval_unaffected hc env callee).bind fun f => ?_
    exact (evalAll_unaffected hc env args).bind fun vs => hc f vs
  | .attr owner field => by
    rw [eval]
    refine (eval_unaffected hc env owner).bind fun _ => ?_
    exact get_bind (fun _ _ _ => rfl) fun _ => of_orFault _
  | .item owner key => by
    rw [eval]
    refine (eval_unaffected hc env owner).bind fun _ => (eval_unaffected hc env key).bind fun _ => ?_
    exact get_bind (fun _ _ _ => rfl) fun _ => of_orFault _
  | .list element => by
    rw [eval]
    exact (eval_unaffected hc env element).bind fun _ => newList_unaffected _
  | .input => by
    rw [eval]
    exact nextInput_unaffected
  | .shown value => by
    rw [eval]
    exact (eval_unaffected hc env value).bind fun _ => shown_unaffected _
  | .store owner key value => by
    rw [eval]
    refine (eval_unaffected hc env owner).bind fun _ => (eval_unaffected hc env key).bind fun _ => ?_
    refine (eval_unaffected hc env value).bind fun _ => ?_
    exact (setItem_unaffected _ _ _).bind fun _ => of_pure _
  | .update owner key op value keepsOld => by
    rw [eval]
    refine (eval_unaffected hc env owner).bind fun _ => (eval_unaffected hc env key).bind fun _ => ?_
    refine (eval_unaffected hc env value).bind fun _ => ?_
    exact updateItem_unaffected _ _ _ fun _ => arith_unaffected _ _ _
  | .storeAttr owner field value => by
    rw [eval]
    refine (eval_unaffected hc env owner).bind fun _ => ?_
    refine (eval_unaffected hc env value).bind fun _ => ?_
    exact (setAttr_unaffected _ _ _).bind fun _ => of_pure _
  | .updateAttr owner field op value keepsOld => by
    rw [eval]
    refine (eval_unaffected hc env owner).bind fun _ => ?_
    refine (eval_unaffected hc env value).bind fun _ => ?_
    exact updateAttr_unaffected _ _ _ fun _ => arith_unaffected _ _ _
  | .newArray size typeName => by
    rw [eval]
    exact (eval_unaffected hc env size).bind fun _ => newArray_unaffected _ _
  | .newObject typeName => by
    rw [eval]
    exact newObject_unaffected _
  | .misjoined _ _ => by
    rw [eval]
    exact of_fault _
  | .adjoined digits next => by
    rw [eval]
    exact (eval_unaffected hc env next).bind fun _ => of_fault _

theorem evalAll_unaffected (hc : ∀ f args, Unaffected (call f args)) (env : List Nat) :
    ∀ es : List Target.Expr, Unaffected (evalAll call env es)
  | [] => by
    rw [evalAll]
    exact of_pure _
  | e :: rest => by
    rw [evalAll]
    refine (eval_unaffected hc env e).bind fun _ => ?_
    exact (evalAll_unaffected hc env rest).bind fun _ => of_pure _

end

/-! ## Statements -/

theorem execAssign_unaffected (hc : ∀ f args, Unaffected (call f args)) (env : List Nat)
    (target : Target.Place) (value : Target.Expr) :
    Unaffected (execAssign call env target value) := by
  refine (eval_unaffected hc env value).bind fun v => ?_
  cases target with
  | name id => exact (assign_unaffected env id v).bind fun _ => of_pure _
  | attr owner field =>
    refine (eval_unaffected hc env owner).bind fun o => ?_
    exact (setAttr_unaffected o field v).bind fun _ => of_pure _
  | item owner key =>
    refine (eval_unaffected hc env owner).bind fun o => (eval_unaffected hc env key).bind fun k => ?_
    exact (setItem_unaffected o k v).bind fun _ => of_pure _

/-- A combined assignment reads the old value before it evaluates the operand. -/
theorem execAugment_unaffected (hc : ∀ f args, Unaffected (call f args)) (env : List Nat)
    (target : Target.Place) (op : ArithOp) (value : Target.Expr) :
    Unaffected (execAugment call env target op value) := by
  have hv := eval_unaffected hc env value
  cases target with
  | name id =>
    refine get_bind (fun s words there => by rw [lookup_more]) fun _ => ?_
    refine (of_orFault _).bind fun old => ?_
    refine hv.bind fun v => (inPlace_unaffected op old v).bind fun new => ?_
    exact (assign_unaffected env id new).bind fun _ => of_pure _
  | attr owner field =>
    refine (eval_unaffected hc env owner).bind fun o => ?_
    refine get_bind (fun _ _ _ => rfl) fun _ => (of_orFault _).bind fun old => ?_
    refine hv.bind fun v => (inPlace_unaffected op old v).bind fun new => ?_
    exact (setAttr_unaffected o field new).bind fun _ => of_pure _
  | item owner key =>
    refine (eval_unaffected hc env owner).bind fun o => (eval_unaffected hc env key).bind fun k => ?_
    refine get_bind (fun _ _ _ => rfl) fun _ => (of_orFault _).bind fun old => ?_
    refine hv.bind fun v => (inPlace_unaffected op old v).bind fun new => ?_
    exact (setItem_unaffected o k new).bind fun _ => of_pure _

theorem emit_unaffected (pieces : List Value) : Unaffected (emit pieces) :=
  of_modify (fun _ => rfl) fun _ _ _ => rfl

theorem holds_unaffected (hc : ∀ f args, Unaffected (call f args)) (env : List Nat)
    (condition : Target.Expr) : Unaffected (holds call env condition) :=
  (eval_unaffected hc env condition).bind fun _ => get_bind (fun _ _ _ => rfl) fun _ => of_pure _

/-- By the rounds: each starts where the one before has left the input. -/
theorem loop_unaffected {test : Run Bool} {body : Run Flow} (ht : Unaffected test)
    (hb : Unaffected body) (rounds : Nat) : Unaffected (loop test body rounds) := by
  induction rounds with
  | zero => exact of_throw _
  | succ rounds ih =>
    rw [loop]
    refine ht.bind fun holds => ?_
    split
    · refine hb.bind fun flow => ?_
      cases flow with
      | next | continued => exact ih
      | broke | returned v => exact of_pure _
    · exact of_pure _

mutual

/-- By the tree again. The body of a function is not run where it is defined. -/
theorem exec_unaffected (hc : ∀ f args, Unaffected (call f args)) (rounds : Nat) (path : String)
    (env : List Nat) : ∀ s : Target.Stmt, Unaffected (exec call rounds path env s)
  | .assign target value => by
    rw [exec]
    exact execAssign_unaffected hc env target value
  | .augment target op value => by
    rw [exec]
    exact execAugment_unaffected hc env target op value
  | .eval e => by
    rw [exec]
    exact (eval_unaffected hc env e).bind fun _ => of_pure _
  | .print pieces => by
    rw [exec]
    refine (evalAll_unaffected hc env pieces).bind fun vs => ?_
    exact (emit_unaffected vs).bind fun _ => of_pure _
  | .define header nonlocals body => by
    rw [exec]
    refine (newFields_unaffected []).bind fun ref => ?_
    exact (assign_unaffected env _ _).bind fun _ => of_pure _
  | .unimplemented name => by
    rw [exec]
    exact of_fault _
  | .ifElse condition thenSuite elseSuite _ => by
    rw [exec]
    refine (holds_unaffected hc env condition).bind fun _ => ?_
    split
    · exact execAll_unaffected hc rounds path env thenSuite
    · exact execAll_unaffected hc rounds path env elseSuite
  | .whileLoop condition body => by
    rw [exec]
    exact loop_unaffected (holds_unaffected hc env condition)
      (execAll_unaffected hc rounds path env body) rounds
  | .leaveUnless condition => by
    rw [exec]
    refine (holds_unaffected hc env condition).bind fun _ => ?_
    split
    · exact of_pure _
    · exact of_pure _
  | .ret none => by
    rw [exec]
    exact of_pure _
  | .ret (some e) => by
    rw [exec]
    exact (eval_unaffected hc env e).bind fun _ => of_pure _
  | .breakLoop | .continueLoop | .pass => by
    rw [exec]
    exact of_pure _

theorem execAll_unaffected (hc : ∀ f args, Unaffected (call f args)) (rounds : Nat)
    (path : String) (env : List Nat) :
    ∀ ss : List Target.Stmt, Unaffected (execAll call rounds path env ss)
  | [] => by
    rw [execAll]
    exact of_pure _
  | s :: rest => by
    rw [execAll]
    refine (exec_unaffected hc rounds path env s).bind fun flow => ?_
    cases flow with
    | next => exact execAll_unaffected hc rounds path env rest
    | broke | continued | returned v => exact of_pure _

end

end

/-! ## Calls and programs -/

namespace Outcome

end Outcome

end ConsoleCpp.Machine
