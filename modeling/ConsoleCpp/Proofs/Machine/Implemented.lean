/-
Functions that are announced and defined are never called without a body. Where the lines of a
program define what they announce before anything else runs, a definition without a body is gone by
the time that a variable is read; one that stays, outside of the main function, is hidden by a
variable of the same name. So no value that a run computes or stores is a function without a body,
and no run ends in the fault of one. What is known of a value depends on the variables that the
frames have, which become more in a run and never fewer.
-/
import ConsoleCpp.Machine.Program
import ConsoleCpp.Proofs.Generate.Settled
import ConsoleCpp.Proofs.Machine.Effects
import ConsoleCpp.Proofs.Machine.Kept

namespace ConsoleCpp.Machine

open Generate (Settled SettledAll)

/-! ## Frames -/

/-- Whether a frame has a variable. -/
def HasVariable (frames : Array Frame) (id : String) (i : Nat) : Bool :=
  (frames.getD i []).any fun entry => entry.1 == id

/-- Every frame goes on to have the variables that it had. -/
def Grows (frames later : Array Frame) : Prop :=
  ∀ id i, HasVariable frames id i = true → HasVariable later id i = true

theorem Grows.refl (frames : Array Frame) : Grows frames frames := fun _ _ h => h

theorem Grows.trans {frames later last : Array Frame} (h : Grows frames later)
    (h' : Grows later last) : Grows frames last :=
  fun id i hv => h' id i (h id i hv)

theorem hasVariable_assigned (frames : Array Frame) (i : Nat) (id : String) (v : Value)
    (other : String) :
    HasVariable (frames.modify i (withVariable id v)) other = HasVariable frames other := by
  funext j
  unfold HasVariable
  by_cases hj : i = j
  · subst hj
    by_cases hi : i < frames.size
    · rw [getD_modify hi, any_withVariable]
    · simp [Array.getD_eq_getD_getElem?, hi]
  · simp [Array.getD_eq_getD_getElem?, Array.getElem?_modify, hj]

/-- A variable of this name is found in the frames `env` before the outermost frame of the program
is looked at. -/
inductive Shielded (frames : Array Frame) (id : String) : List Nat → Prop where
  | here {i : Nat} {env : List Nat} (hi : i ≠ 0) (h : HasVariable frames id i = true) :
    Shielded frames id (i :: env)
  | outer {i : Nat} {env : List Nat} (hi : i ≠ 0) (h : Shielded frames id env) :
    Shielded frames id (i :: env)

theorem Shielded.mono {frames later : Array Frame} {id : String} (hg : Grows frames later) :
    ∀ {env : List Nat}, Shielded frames id env → Shielded later id env
  | _ :: _, .here hi h => .here hi (hg id _ h)
  | _ :: _, .outer hi h => .outer hi (h.mono hg)

theorem Shielded.find_ne_zero {frames : Array Frame} {id : String} {i : Nat} :
    ∀ {env : List Nat}, Shielded frames id env → env.find? (HasVariable frames id) = some i → i ≠ 0
  | j :: env, h, hf => by
    rw [List.find?_cons] at hf
    split at hf
    · cases hf
      cases h with
      | here hi _ => exact hi
      | outer hi _ => exact hi
    · rename_i hj
      cases h with
      | here _ h => rw [h] at hj; cases hj
      | outer _ h => exact h.find_ne_zero hf

/-! ## Values -/

section

variable (hidden : List String)

/-- None of the hidden variables is reached from the frames `env`. -/
def Guarded (frames : Array Frame) (env : List Nat) : Prop :=
  ∀ id ∈ hidden, Shielded frames id env

/-- The body of the function defines what it announces, and inside of it none of the hidden
variables is reached. -/
structure Callable (frames : Array Frame) (f : Closure) : Prop where
  body : SettledAll [] f.body
  guarded : ∀ id ∈ hidden, id ∈ f.locals ∨ Shielded frames id f.env

/-- A value that is a function is one that can be called. -/
def Sound (frames : Array Frame) (v : Value) : Prop :=
  ∀ f, v = .function f → Callable hidden frames f

/-- The hidden variables of the outermost frame. -/
def Outside (i : Nat) (id : String) : Prop := i = 0 ∧ id ∈ hidden

/-- All that is stored is sound, and so are the values of variables but of those that `loose`
names. -/
structure Secure (loose : Nat → String → Prop) (s : State) : Prop where
  stored : Stored (Sound hidden s.frames) s
  held : ∀ i id v, (s.frames.getD i []).lookup id = some (some v) →
    loose i id ∨ Sound hidden s.frames v
  inhabited : 0 < s.frames.size

end

variable {hidden : List String} {frames later : Array Frame} {env : List Nat} {s t : State}
  {loose : Nat → String → Prop}

theorem Guarded.mono (hg : Grows frames later) (h : Guarded hidden frames env) :
    Guarded hidden later env :=
  fun id hid => (h id hid).mono hg

theorem Callable.mono (hg : Grows frames later) {f : Closure} (h : Callable hidden frames f) :
    Callable hidden later f :=
  ⟨h.body, fun id hid => (h.guarded id hid).imp_right (.mono hg)⟩

theorem Sound.mono (hg : Grows frames later) {v : Value} (h : Sound hidden frames v) :
    Sound hidden later v :=
  fun f hf => (h f hf).mono hg

theorem sound_of_data (v : Value) (h : v.IsData) : Sound hidden frames v := by
  rintro f rfl
  cases h

theorem Stored.sound_mono (hg : Grows frames later) (h : Stored (Sound hidden frames) s) :
    Stored (Sound hidden later) s :=
  ⟨fun ref v hv => (h.elements ref v hv).mono hg, fun ref e he => (h.fields ref e he).mono hg⟩

/-! ### Looking up -/

theorem freeVariable_ordinary {id : String} {e : Fault} : ∀ {env : List Nat},
    freeVariable s id env = .error e → e.Ordinary
  | [], h => by
    unfold freeVariable at h
    split at h
    · cases h
    · cases h
      split <;> exact rfl
  | frame :: rest, h => by
    unfold freeVariable at h
    split at h
    · cases h
    · cases h
      exact rfl
    · exact freeVariable_ordinary h

theorem lookup_ordinary {id : String} {e : Fault} (h : lookup s id env = .error e) :
    e.Ordinary := by
  cases env with
  | nil => exact freeVariable_ordinary h
  | cons frame rest =>
    rw [lookup] at h
    split at h
    · cases h
    · cases h
      exact rfl
    · exact freeVariable_ordinary h

/-- What is looked up is sound, unless it is looked up in a hidden variable. -/
theorem lookup_sound (hs : Secure hidden (Outside hidden) s) {id : String}
    (hid : id ∈ hidden → Shielded s.frames id env) :
    Ends (Sound hidden s.frames) Fault.Ordinary (lookup s id env) := by
  cases hl : lookup s id env with
  | error e => exact lookup_ordinary hl
  | ok v =>
    rcases freeVariable_ok_iff.1 (lookup_ok_iff.1 hl) with ⟨i, hf, hv⟩ | ⟨-, b, -, rfl⟩
    · rcases hs.held i id v hv with ⟨hi, hh⟩ | h
      · exact absurd hi ((hid hh).find_ne_zero hf)
      · exact h
    · exact sound_of_data _ rfl

/-! ### New values of variables -/

theorem lookup_withVariable_ne {id other : String} (v : Value) (ho : other ≠ id) :
    ∀ frame : Frame, (withVariable id v frame).lookup other = frame.lookup other
  | [] => rfl
  | (name, old) :: rest => by
    unfold withVariable
    split
    · rename_i hn
      have hb : (other == name) = false := by
        rw [eq_of_beq hn, beq_eq_false_iff_ne]
        exact ho
      rw [List.lookup_cons, List.lookup_cons, hb]
    · rw [List.lookup_cons, List.lookup_cons, lookup_withVariable_ne v ho rest]

/-- A variable that has a value after one variable was given a value is that variable and has that
value, or it is another one and had its value before. -/
theorem lookup_assigned {id other : String} {i j : Nat} {v w : Value}
    (hi : HasVariable frames id i = true)
    (h : ((frames.modify i (withVariable id v)).getD j []).lookup other = some (some w)) :
    (j = i ∧ other = id ∧ w = v) ∨
      (¬ (j = i ∧ other = id) ∧ (frames.getD j []).lookup other = some (some w)) := by
  have hlt : i < frames.size := frame_lt (s := { State.empty [] with frames := frames }) hi
  by_cases hj : j = i
  · subst hj
    rw [getD_modify hlt] at h
    by_cases ho : other = id
    · subst ho
      rw [lookup_withVariable v hi] at h
      cases h
      exact .inl ⟨rfl, rfl, rfl⟩
    · rw [lookup_withVariable_ne v ho] at h
      exact .inr ⟨fun hc => ho hc.2, h⟩
  · refine .inr ⟨fun hc => hj hc.1, ?_⟩
    simpa [Array.getD_eq_getD_getElem?, Array.getElem?_modify, Ne.symm hj] using h

theorem grows_assigned (frames : Array Frame) (i : Nat) (id : String) (v : Value) :
    Grows frames (frames.modify i (withVariable id v)) :=
  fun other j h => by rw [hasVariable_assigned]; exact h

/-- A variable is given a value: of the variables whose values need not be sound, others may be left
than before, as long as the value is sound or its variable is one of them. -/
theorem Secure.assigned {after : Nat → String → Prop} {i : Nat} {id : String} {v : Value}
    (hs : Secure hidden loose s) (hi : HasVariable s.frames id i = true)
    (hv : after i id ∨ Sound hidden s.frames v)
    (hl : ∀ j other, loose j other → ¬ (j = i ∧ other = id) → after j other) :
    Secure hidden after { s with frames := s.frames.modify i (withVariable id v) } := by
  have hg := grows_assigned s.frames i id v
  refine ⟨?_, fun j other w hw => ?_, by simpa using hs.inhabited⟩
  · have h := hs.stored.sound_mono hg
    exact ⟨h.elements, h.fields⟩
  · rcases lookup_assigned hi hw with ⟨rfl, rfl, rfl⟩ | ⟨hne, hw⟩
    · exact hv.imp_right (.mono hg)
    · exact (hs.held j other w hw).imp (fun h => hl j other h hne) (.mono hg)

/-! ## Runs -/

section

variable {α β : Type}

/-- How a run from a state may end: with what `post` says of the result, in a state that is secure,
or with a fault that is not that of a function without a body. -/
def Lands (hidden : List String) (post : Array Frame → α → Prop) (s : State) :
    EStateM.Result Stop State α → Prop
  | .ok a t => Grows s.frames t.frames ∧ Secure hidden (Outside hidden) t ∧ post t.frames a
  | .error e _ => ∀ f, e = .fault f → f.Ordinary

/-- From each secure state with at least these variables the run ends as it may. -/
def Behaves (hidden : List String) (frames : Array Frame) (post : Array Frame → α → Prop)
    (x : Run α) : Prop :=
  ∀ s, Grows frames s.frames → Secure hidden (Outside hidden) s → Lands hidden post s (x s)

variable {post : Array Frame → α → Prop} {after : Array Frame → β → Prop} {x : Run α}
  {next : α → Run β}

theorem Lands.of_grows {r : EStateM.Result Stop State α} (hg : Grows s.frames t.frames)
    (h : Lands hidden post t r) : Lands hidden post s r := by
  cases r with
  | error e u => exact h
  | ok a u => exact ⟨hg.trans h.1, h.2⟩

theorem Lands.bind (hx : Lands hidden post s (x s))
    (hn : ∀ a t, Grows s.frames t.frames → Secure hidden (Outside hidden) t → post t.frames a →
      Lands hidden after t (next a t)) : Lands hidden after s ((x >>= next) s) := by
  cases hr : x s with
  | error e t =>
    rw [hr] at hx
    rw [bind_of_error hr]
    exact hx
  | ok a t =>
    rw [hr] at hx
    obtain ⟨hg, ht, ha⟩ := hx
    rw [bind_of_ok hr]
    exact (hn a t hg ht ha).of_grows hg

namespace Behaves

theorem mono (hg : Grows frames later) (h : Behaves hidden frames post x) :
    Behaves hidden later post x :=
  fun s hs => h s (hg.trans hs)

theorem of_pure {a : α} (h : ∀ gs, Grows frames gs → post gs a) :
    Behaves hidden frames post (pure a) :=
  fun _ hg hs => ⟨.refl _, hs, h _ hg⟩

theorem of_throw {e : Stop} (h : ∀ f, e = .fault f → f.Ordinary) :
    Behaves hidden frames post (throw e) :=
  fun _ _ _ => h

theorem of_fault {e : Fault} (h : e.Ordinary) : Behaves hidden frames post (fault e) :=
  of_throw fun f hf => by cases hf; exact h

/-- What leaves the variables as they are and the values stored sound. -/
theorem of_keeps (h : ∀ gs, Grows frames gs → Keeps (Sound hidden gs) (post gs) x) :
    Behaves hidden frames post x := by
  intro s hg hs
  have hk := h _ hg s hs.stored
  cases hx : x s with
  | error e t =>
    rw [hx] at hk
    exact hk
  | ok a t =>
    rw [hx] at hk
    obtain ⟨hf, ht, ha⟩ := hk
    rw [Lands, hf]
    refine ⟨.refl _, ⟨by rwa [hf], ?_, by rw [hf]; exact hs.inhabited⟩, ha⟩
    rw [hf]
    exact hs.held

theorem bind (hx : Behaves hidden frames post x)
    (hn : ∀ gs a, Grows frames gs → post gs a → Behaves hidden gs after (next a)) :
    Behaves hidden frames after (x >>= next) :=
  fun s hg hs => (hx s hg hs).bind fun a t ht hts ha =>
    hn t.frames a (hg.trans ht) ha t (.refl _) hts

theorem get_bind {next : State → Run β}
    (h : ∀ s, Behaves hidden frames after (next s)) : Behaves hidden frames after (get >>= next) :=
  fun s hg hs => h s s hg hs

/-- Something is looked at in the state. -/
theorem of_read {look : State → Except Fault α}
    (h : ∀ s, Grows frames s.frames → Secure hidden (Outside hidden) s →
      Ends (post s.frames) Fault.Ordinary (look s)) :
    Behaves hidden frames post (get >>= fun s => orFault (look s)) := by
  intro s hg hs
  have hr := h s hg hs
  show Lands hidden post s (orFault (look s) s)
  cases hl : look s with
  | error e =>
    rw [hl] at hr
    rintro f ⟨⟩
    exact hr
  | ok a =>
    rw [hl] at hr
    exact ⟨.refl _, hs, hr⟩

theorem read_bind {look : State → Except Fault α}
    (h : ∀ s, Grows frames s.frames → Secure hidden (Outside hidden) s →
      Ends (post s.frames) Fault.Ordinary (look s))
    (hn : ∀ gs a, Grows frames gs → post gs a → Behaves hidden gs after (next a)) :
    Behaves hidden frames after (get >>= fun s => orFault (look s) >>= next) :=
  (of_read h).bind hn

end Behaves

end

open Behaves

/-! ## Variables -/

theorem lookup_ends (hg : Guarded hidden frames env) (id : String) (s : State)
    (hs : Grows frames s.frames) (h : Secure hidden (Outside hidden) s) :
    Ends (Sound hidden s.frames) Fault.Ordinary (lookup s id env) :=
  lookup_sound h fun hid => (hg id hid).mono hs

theorem assign_behaves (env : List Nat) (id : String) {v : Value} (hv : Sound hidden frames v) :
    Behaves hidden frames (fun _ _ => True) (assign env id v) := by
  intro s hg hs
  cases hf : frameOf? s id env with
  | none =>
    rw [assign_of_none hf]
    rintro f ⟨⟩
    exact rfl
  | some i =>
    rw [assign_of_frame hf]
    have hi : HasVariable s.frames id i = true := List.find?_some hf
    refine ⟨grows_assigned _ _ _ _, ?_, trivial⟩
    exact hs.assigned hi (.inr (hv.mono hg)) fun _ _ h _ => h

/-- A new frame is not the outermost one, and it has the variables that it was made with. -/
theorem newFrame_behaves {vars : Frame}
    (hv : ∀ id v, vars.lookup id = some (some v) → Sound hidden frames v) :
    Behaves hidden frames (fun gs i => i ≠ 0 ∧ ∀ id, (vars.any fun entry => entry.1 == id) = true →
      HasVariable gs id i = true) (newFrame vars) := by
  intro s hg hs
  have hgrows : Grows s.frames (s.frames.push vars) := by
    intro id i hi
    have hlt : i < s.frames.size := frame_lt hi
    unfold HasVariable at hi ⊢
    simpa [Array.getD_eq_getD_getElem?, Array.getElem?_push, hlt, hlt.ne] using hi
  refine ⟨hgrows, ⟨?_, ?_, by simp⟩, ?_, ?_⟩
  · have h := hs.stored.sound_mono hgrows
    exact ⟨h.elements, h.fields⟩
  · intro i id v hl
    by_cases hi : i = s.frames.size
    · subst hi
      have hl' : vars.lookup id = some (some v) := by
        simpa [Array.getD_eq_getD_getElem?] using hl
      exact .inr ((hv id v hl').mono (hg.trans hgrows))
    · have hl' : (s.frames.getD i []).lookup id = some (some v) := by
        simpa [Array.getD_eq_getD_getElem?, Array.getElem?_push, hi] using hl
      exact (hs.held i id v hl').imp_right (.mono hgrows)
  · have := hs.inhabited
    omega
  · intro id hid
    simpa [HasVariable, Array.getD_eq_getD_getElem?] using hid

theorem stepVariable_behaves (hg : Guarded hidden frames env) (op : StepOp) (keepsOld : Bool)
    (id : String) : Behaves hidden frames (Sound hidden) (stepVariable env op keepsOld id) := by
  have hone : ∀ gs, Sound hidden gs (.int 1) := fun gs => sound_of_data _ rfl
  have harith : ∀ {gs : Array Frame} {a : Value} (op : ArithOp), Sound hidden gs a →
      Behaves hidden gs (Sound hidden) (arith op a (.int 1)) :=
    fun op ha => of_keeps fun gs h => arith_keeps sound_of_data op (ha.mono h) (hone gs)
  refine read_bind (lookup_ends hg id) fun g₁ old h₁ ho => ?_
  refine (harith op.arith ho).bind fun g₂ new h₂ hn => ?_
  refine (assign_behaves env id hn).bind fun g₃ _ h₃ _ => ?_
  split
  · cases op with
    | increment | decrement => exact harith _ (hn.mono h₃)
  · exact of_pure fun g₄ h₄ => hn.mono (h₃.trans h₄)

/-! ## Expressions -/

theorem literalNumber_isData (digits : String) : (literalNumber digits).IsData := by
  unfold literalNumber
  split
  · exact rfl
  · split <;> exact rfl

/-- Calls of sound values with sound arguments give sound values. -/
def CallsBehave (hidden : List String) (call : Caller) : Prop :=
  ∀ frames f args, Sound hidden frames f → (∀ v ∈ args, Sound hidden frames v) →
    Behaves hidden frames (Sound hidden) (call f args)

section

variable {call : Caller}

mutual

theorem eval_behaves (hc : CallsBehave hidden call) {env : List Nat} :
    ∀ (e : Target.Expr) {frames : Array Frame}, Guarded hidden frames env →
      Behaves hidden frames (Sound hidden) (eval call env e)
  | .number digits, _, _ => by
    rw [eval]
    exact of_pure fun _ _ => sound_of_data _ (literalNumber_isData digits)
  | .text spelling, _, _ => by
    rw [eval]
    exact of_keeps fun _ _ => of_data sound_of_data (literalText_ends spelling)
  | .bool _, _, _ | .nothing, _, _ => by
    rw [eval]
    exact of_pure fun _ _ => sound_of_data _ rfl
  | .name id, _, hg => by
    rw [eval]
    exact of_read (lookup_ends hg id)
  | .sign op operand, _, hg => by
    rw [eval]
    exact (eval_behaves hc operand hg).bind fun _ _ _ _ =>
      of_keeps fun _ _ => sign_keeps sound_of_data _ _
  | .binary op left right, _, hg => by
    have hl := eval_behaves hc left hg
    cases op with
    | and | or =>
      -- the left side decides whether it is the value itself or the right side is run
      rw [eval]
      refine hl.bind fun _ a h₁ ha => get_bind fun s => ?_
      have hr := eval_behaves hc right (hg.mono h₁)
      split
      · first | exact hr | exact of_pure fun _ h => ha.mono h
      · first | exact hr | exact of_pure fun _ h => ha.mono h
    | _ =>
      rw [eval]
      · refine hl.bind fun _ a h₁ ha => ?_
        refine (eval_behaves hc right (hg.mono h₁)).bind fun _ b h₂ hb => of_keeps fun _ h₃ => ?_
        exact binary_keeps sound_of_data _ (ha.mono (h₂.trans h₃)) (hb.mono h₃)
      · nofun
      · nofun
  | .bind id value, _, hg => by
    rw [eval]
    refine (eval_behaves hc value hg).bind fun _ v _ hv => ?_
    exact (assign_behaves env id hv).bind fun _ _ h _ => of_pure fun _ h' => hv.mono (h.trans h')
  | .step op keepsOld id, _, hg => by
    rw [eval]
    exact stepVariable_behaves hg op keepsOld id
  | .call callee args, _, hg => by
    rw [eval]
    refine (eval_behaves hc callee hg).bind fun _ f h₁ hf => ?_
    refine (evalAll_behaves hc args (hg.mono h₁)).bind fun gs vs h₂ hvs => ?_
    -- the callee was found before the arguments ran, and the frames have only grown since
    exact hc gs f vs (hf.mono h₂) hvs
  | .attr owner field, _, hg => by
    rw [eval]
    refine (eval_behaves hc owner hg).bind fun _ o _ _ => of_read fun s _ hs => ?_
    exact getAttr_ends sound_of_data hs.stored o field
  | .item owner key, _, hg => by
    rw [eval]
    refine (eval_behaves hc owner hg).bind fun _ o h₁ _ => ?_
    refine (eval_behaves hc key (hg.mono h₁)).bind fun _ k _ _ => of_read fun s _ hs => ?_
    exact getItem_ends sound_of_data hs.stored o k
  | .list element, _, hg => by
    rw [eval]
    refine (eval_behaves hc element hg).bind fun _ v _ hv => of_keeps fun _ h => ?_
    refine newList_keeps sound_of_data fun w hw => ?_
    rw [Array.mem_singleton.1 hw]
    exact hv.mono h
  | .input, _, _ => by
    rw [eval]
    exact of_keeps fun _ _ => nextInput_keeps sound_of_data
  | .shown value, _, hg => by
    rw [eval]
    exact (eval_behaves hc value hg).bind fun _ v _ _ =>
      of_keeps fun _ _ => shown_keeps sound_of_data v
  | .store owner key value, _, hg => by
    rw [eval]
    refine (eval_behaves hc owner hg).bind fun _ o h₁ _ => ?_
    refine (eval_behaves hc key (hg.mono h₁)).bind fun _ k h₂ _ => ?_
    refine (eval_behaves hc value (hg.mono (h₁.trans h₂))).bind fun _ v _ hv => ?_
    exact of_keeps fun _ h => storeItem_keeps o k (hv.mono h)
  | .update owner key op value keepsOld, _, hg => by
    rw [eval]
    refine (eval_behaves hc owner hg).bind fun _ o h₁ _ => ?_
    refine (eval_behaves hc key (hg.mono h₁)).bind fun _ k h₂ _ => ?_
    refine (eval_behaves hc value (hg.mono (h₁.trans h₂))).bind fun _ v _ hv => ?_
    -- of what is combined, the old value comes from the heap, where all values are sound
    refine of_keeps fun _ h => updateItem_keeps sound_of_data o k _ fun old ho => ?_
    exact arith_keeps sound_of_data op ho (hv.mono h)
  | .storeAttr owner field value, _, hg => by
    rw [eval]
    refine (eval_behaves hc owner hg).bind fun _ o h₁ _ => ?_
    refine (eval_behaves hc value (hg.mono h₁)).bind fun _ v _ hv => ?_
    exact of_keeps fun _ h => storeAttr_keeps o field (hv.mono h)
  | .updateAttr owner field op value keepsOld, _, hg => by
    rw [eval]
    refine (eval_behaves hc owner hg).bind fun _ o h₁ _ => ?_
    refine (eval_behaves hc value (hg.mono h₁)).bind fun _ v _ hv => ?_
    refine of_keeps fun _ h => updateAttr_keeps sound_of_data o field _ fun old ho => ?_
    exact arith_keeps sound_of_data op ho (hv.mono h)
  | .newArray size typeName, _, hg => by
    rw [eval]
    exact (eval_behaves hc size hg).bind fun _ n _ _ =>
      of_keeps fun _ _ => newArray_keeps sound_of_data n typeName
  | .newObject typeName, _, _ => by
    rw [eval]
    exact of_keeps fun _ _ => newInstance_keeps sound_of_data typeName
  | .misjoined _ _, _, _ => by
    rw [eval]
    exact of_fault rfl
  | .adjoined digits next, _, hg => by
    rw [eval]
    refine (eval_behaves hc next hg).bind fun _ _ _ _ => of_fault ?_
    unfold notApplicable
    split <;> exact rfl

theorem evalAll_behaves (hc : CallsBehave hidden call) {env : List Nat} :
    ∀ (es : List Target.Expr) {frames : Array Frame}, Guarded hidden frames env →
      Behaves hidden frames (fun gs vs => ∀ v ∈ vs, Sound hidden gs v) (evalAll call env es)
  | [], _, _ => by
    rw [evalAll]
    exact of_pure fun _ _ => nofun
  | e :: rest, _, hg => by
    rw [evalAll]
    refine (eval_behaves hc e hg).bind fun _ v h₁ hv => ?_
    refine (evalAll_behaves hc rest (hg.mono h₁)).bind fun _ vs h₂ hvs => of_pure fun _ h₃ => ?_
    exact List.forall_mem_cons.2 ⟨hv.mono (h₂.trans h₃), fun w hw => (hvs w hw).mono h₃⟩

end

/-! ## Statements -/

/-- A value that is returned is sound. -/
def FlowSound (hidden : List String) (frames : Array Frame) (flow : Flow) : Prop :=
  ∀ v, flow = .returned v → Sound hidden frames v

theorem done {flow : Flow} (h : ∀ v, flow ≠ .returned v) :
    Behaves hidden frames (FlowSound hidden) (pure flow) :=
  of_pure fun _ _ v hv => absurd hv (h v)

theorem setItem_behaves (owner key : Value) {v : Value} (hv : Sound hidden frames v) :
    Behaves hidden frames (fun _ _ => True) (setItem owner key v) :=
  of_keeps fun _ h => setItem_keeps owner key (hv.mono h)

theorem setAttr_behaves (owner : Value) (field : String) {v : Value} (hv : Sound hidden frames v) :
    Behaves hidden frames (fun _ _ => True) (setAttr owner field v) :=
  of_keeps fun _ h => setAttr_keeps owner field (hv.mono h)

theorem inPlace_behaves (op : ArithOp) {old v : Value} (ho : Sound hidden frames old)
    (hv : Sound hidden frames v) : Behaves hidden frames (Sound hidden) (inPlace op old v) :=
  of_keeps fun _ h => inPlace_keeps sound_of_data op (ho.mono h) (hv.mono h)

theorem execAssign_behaves (hc : CallsBehave hidden call) (hg : Guarded hidden frames env)
    (target : Target.Place) (value : Target.Expr) :
    Behaves hidden frames (FlowSound hidden) (execAssign call env target value) := by
  refine (eval_behaves hc value hg).bind fun _ v h₁ hv => ?_
  cases target with
  | name id => exact (assign_behaves env id hv).bind fun _ _ _ _ => done nofun
  | attr owner field =>
    refine (eval_behaves hc owner (hg.mono h₁)).bind fun _ o h₂ _ => ?_
    exact (setAttr_behaves o field (hv.mono h₂)).bind fun _ _ _ _ => done nofun
  | item owner key =>
    refine (eval_behaves hc owner (hg.mono h₁)).bind fun _ o h₂ _ => ?_
    refine (eval_behaves hc key (hg.mono (h₁.trans h₂))).bind fun _ k h₃ _ => ?_
    exact (setItem_behaves o k (hv.mono (h₂.trans h₃))).bind fun _ _ _ _ => done nofun

theorem execAugment_behaves (hc : CallsBehave hidden call) (hg : Guarded hidden frames env)
    (target : Target.Place) (op : ArithOp) (value : Target.Expr) :
    Behaves hidden frames (FlowSound hidden) (execAugment call env target op value) := by
  -- the place has been read: the value is computed, combined with what was read, and stored
  have combined : ∀ {gs : Array Frame} {old : Value} {store : Value → Run Unit},
      Grows frames gs → Sound hidden gs old →
      (∀ {hs : Array Frame} {new : Value}, Sound hidden hs new →
        Behaves hidden hs (fun _ _ => True) (store new)) →
      Behaves hidden gs (FlowSound hidden) (do
        let v ← eval call env value
        store (← inPlace op old v)
        return .next) := by
    intro gs old store h ho hs
    refine (eval_behaves hc value (hg.mono h)).bind fun _ v h₁ hv => ?_
    refine (inPlace_behaves op (ho.mono h₁) hv).bind fun _ new _ hn => ?_
    exact (hs hn).bind fun _ _ _ _ => done nofun
  cases target with
  | name id =>
    refine read_bind (lookup_ends hg id) fun _ old h ho => ?_
    exact combined h ho fun hn => assign_behaves env id hn
  | attr owner field =>
    refine (eval_behaves hc owner hg).bind fun _ o h₁ _ => ?_
    refine read_bind (fun s _ hs => getAttr_ends sound_of_data hs.stored o field) ?_
    exact fun _ old h₂ ho => combined (h₁.trans h₂) ho fun hn => setAttr_behaves o field hn
  | item owner key =>
    refine (eval_behaves hc owner hg).bind fun _ o h₁ _ => ?_
    refine (eval_behaves hc key (hg.mono h₁)).bind fun _ k h₂ _ => ?_
    refine read_bind (fun s _ hs => getItem_ends sound_of_data hs.stored o k) ?_
    exact fun _ old h₃ ho => combined ((h₁.trans h₂).trans h₃) ho fun hn => setItem_behaves o k hn

theorem emit_behaves (pieces : List Value) :
    Behaves hidden frames (fun _ _ => True) (emit pieces) :=
  of_keeps fun _ _ => emit_keeps pieces

theorem holds_behaves (hc : CallsBehave hidden call) (hg : Guarded hidden frames env)
    (condition : Target.Expr) :
    Behaves hidden frames (fun _ _ => True) (holds call env condition) :=
  (eval_behaves hc condition hg).bind fun _ _ _ _ => get_bind fun _ => of_pure fun _ _ => trivial

theorem loop_behaves {test : Run Bool} {body : Run Flow}
    (ht : Behaves hidden frames (fun _ _ => True) test)
    (hb : Behaves hidden frames (FlowSound hidden) body) (rounds : Nat) :
    Behaves hidden frames (FlowSound hidden) (loop test body rounds) := by
  induction rounds with
  | zero => exact of_throw nofun
  | succ rounds ih =>
    rw [loop]
    refine ht.bind fun _ holds h₁ _ => ?_
    split
    · refine (hb.mono h₁).bind fun _ flow h₂ hf => ?_
      cases flow with
      | next | continued => exact ih.mono (h₁.trans h₂)
      | broke => exact done nofun
      | returned v => exact of_pure fun _ h w hw => (hf w hw).mono h
    · exact done nofun

/-! ### Definitions -/

/-- The variables that may hold a function without a body while definitions run: the hidden ones of
the outermost frame, and those that stand for a name to be defined yet. -/
def Pending (hidden pending : List String) (env : List Nat) (frames : Array Frame) (i : Nat)
    (id : String) : Prop :=
  Outside hidden i id ∨ (id ∈ pending ∧ env.find? (HasVariable frames id) = some i)

theorem Secure.loosened {after : Nat → String → Prop} (hs : Secure hidden loose s)
    (h : ∀ i id, loose i id → after i id) : Secure hidden after s :=
  ⟨hs.stored, fun i id v hv => (hs.held i id v hv).imp_left (h i id), hs.inhabited⟩

/-- A definition gives a variable a value, and all frames keep the variables that they have. What it
leaves loose decides what may run after it. -/
theorem define_lands (after : Nat → String → Prop) {rounds : Nat} {path : String}
    {header : Target.Header} {nonlocals : List String} {body : List Target.Stmt}
    {post : Array Frame → Flow → Prop} {next : Flow → Run Flow} (hs : Secure hidden loose s)
    (hv : ∀ i, env.find? (HasVariable s.frames header.name) = some i → ∀ ref,
      after i header.name ∨
        Sound hidden s.frames (.function (closure path env header nonlocals body ref)))
    (hl : ∀ i, env.find? (HasVariable s.frames header.name) = some i → ∀ j other, loose j other →
      ¬ (j = i ∧ other = header.name) → after j other)
    (hn : ∀ t, HasVariable t.frames = HasVariable s.frames → Secure hidden after t →
      Lands hidden post t (next .next t)) :
    Lands hidden post s
      ((exec call rounds path env (.define header nonlocals body) >>= next) s) := by
  -- the place for the fields of the function
  have hs' : Secure hidden loose { s with objects := s.objects.push [] } :=
    ⟨hs.stored.pushFields nofun, hs.held, hs.inhabited⟩
  have hnew : newFields [] s = .ok s.objects.size { s with objects := s.objects.push [] } := rfl
  cases hf : frameOf? { s with objects := s.objects.push [] } header.name env with
  | none =>
    have he : exec call rounds path env (.define header nonlocals body) s =
        .error (.fault (.undefined header.name)) { s with objects := s.objects.push [] } := by
      rw [exec]
      exact (bind_of_ok hnew).trans (bind_of_error (assign_of_none hf _))
    rw [bind_of_error he]
    rintro f ⟨⟩
    exact rfl
  | some i =>
    have he : exec call rounds path env (.define header nonlocals body) s =
        .ok .next { s with
          objects := s.objects.push []
          frames := s.frames.modify i (withVariable header.name
            (.function (closure path env header nonlocals body s.objects.size))) } := by
      rw [exec]
      exact (bind_of_ok hnew).trans (bind_of_ok (assign_of_frame hf _))
    have hi : HasVariable s.frames header.name i = true := List.find?_some hf
    rw [bind_of_ok he]
    refine (hn _ ?_ (hs'.assigned hi (hv i hf _) (hl i hf))).of_grows (grows_assigned _ _ _ _)
    funext other
    exact hasVariable_assigned _ _ _ _ other

/-! ### Lines -/

/-- Where nothing is left to be defined, lines that land as they may behave as they may. -/
theorem behaves_of_lands {env : List Nat} {frames : Array Frame} {x : Run Flow}
    (h : ∀ {s : State}, Guarded hidden s.frames env →
      Secure hidden (Pending hidden [] env s.frames) s → Lands hidden (FlowSound hidden) s (x s))
    (hg : Guarded hidden frames env) : Behaves hidden frames (FlowSound hidden) x :=
  fun _ hs hsec => h (hg.mono hs) (hsec.loosened fun _ _ => .inl)

/-- What is to be defined yet is where it was as long as the frames have the same variables. -/
theorem lands_of_same {env : List Nat} {pending : List String} {frames : Array Frame} {x : Run Flow}
    (h : ∀ {s : State}, Guarded hidden s.frames env →
      Secure hidden (Pending hidden pending env s.frames) s →
      Lands hidden (FlowSound hidden) s (x s))
    (hg : Guarded hidden frames env) (t : State) (ht : HasVariable t.frames = HasVariable frames)
    (hs : Secure hidden (Pending hidden pending env frames) t) :
    Lands hidden (FlowSound hidden) t (x t) := by
  refine h (hg.mono fun _ _ hv => by rwa [ht]) ?_
  unfold Pending
  rwa [ht]

mutual

theorem exec_behaves (hc : CallsBehave hidden call) (rounds : Nat) (path : String)
    {env : List Nat} : ∀ (line : Target.Stmt) {frames : Array Frame}, Settled line →
      Guarded hidden frames env →
      Behaves hidden frames (FlowSound hidden) (exec call rounds path env line)
  | .assign target value, _, _, hg => by
    rw [exec]
    exact execAssign_behaves hc hg target value
  | .augment target op value, _, _, hg => by
    rw [exec]
    exact execAugment_behaves hc hg target op value
  | .eval e, _, _, hg => by
    rw [exec]
    exact (eval_behaves hc e hg).bind fun _ _ _ _ => done nofun
  | .print pieces, _, _, hg => by
    rw [exec]
    refine (evalAll_behaves hc pieces hg).bind fun _ vs _ _ => ?_
    exact (emit_behaves vs).bind fun _ _ _ _ => done nofun
  | .define _ _ _, _, hs, _ | .unimplemented _, _, hs, _ => by
    cases hs with | straight h => cases h
  | .ifElse condition thenSuite elseSuite _, _, hs, hg => by
    cases hs with
    | straight h => cases h
    | ifElse ht he =>
      rw [exec]
      refine (holds_behaves hc hg condition).bind fun _ _ h _ => ?_
      split
      · exact behaves_of_lands (execAll_lands hc rounds path thenSuite ht) (hg.mono h)
      · exact behaves_of_lands (execAll_lands hc rounds path elseSuite he) (hg.mono h)
  | .whileLoop condition body, _, hs, hg => by
    cases hs with
    | straight h => cases h
    | whileLoop hb =>
      rw [exec]
      exact loop_behaves (holds_behaves hc hg condition)
        (behaves_of_lands (execAll_lands hc rounds path body hb) hg) rounds
  | .leaveUnless condition, _, _, hg => by
    rw [exec]
    refine (holds_behaves hc hg condition).bind fun _ _ _ _ => ?_
    split <;> exact done nofun
  | .ret none, _, _, _ => by
    rw [exec]
    refine of_pure fun _ _ v hv => ?_
    cases hv
    exact sound_of_data _ rfl
  | .ret (some e), _, _, hg => by
    rw [exec]
    refine (eval_behaves hc e hg).bind fun _ v _ hv => of_pure fun _ h w hw => ?_
    cases hw
    exact hv.mono h
  | .breakLoop, _, _, _ | .continueLoop, _, _, _ | .pass, _, _, _ => by
    rw [exec]
    exact done nofun

/-- From a state in which only the functions `pending` need to be defined yet, the lines that define
them run as they may. -/
theorem execAll_lands (hc : CallsBehave hidden call) (rounds : Nat) (path : String)
    {env : List Nat} : ∀ (lines : List Target.Stmt) {pending : List String} {s : State},
      SettledAll pending lines → Guarded hidden s.frames env →
      Secure hidden (Pending hidden pending env s.frames) s →
      Lands hidden (FlowSound hidden) s (execAll call rounds path env lines s)
  | [], pending, s, h, _, hs => by
    cases h
    rw [execAll]
    refine ⟨.refl _, hs.loosened fun i id hp => ?_, nofun⟩
    exact hp.resolve_right fun h => nomatch h.1
  | line :: rest, pending, s, h, hg, hs => by
    rw [execAll]
    cases h with
    | announced h =>
      rename_i header _
      refine define_lands (Pending hidden (header.name :: pending) env s.frames) hs ?_ ?_ ?_
      · exact fun i hi _ => .inl (.inr ⟨List.mem_cons_self, hi⟩)
      · exact fun _ _ _ _ hp _ => hp.imp_right fun h => ⟨List.mem_cons_of_mem _ h.1, h.2⟩
      · exact lands_of_same (execAll_lands hc rounds path rest h) hg
    | defined hb h =>
      rename_i header _
      let left := pending.filter (· ≠ header.name)
      refine define_lands (Pending hidden left env s.frames) hs ?_ ?_ ?_
      · refine fun i hi ref => .inr fun f hf => ?_
        cases hf
        exact ⟨hb, fun id hid => .inr (hg id hid)⟩
      · -- a name that is the one defined now is in the variable that is given its value
        rintro i hi j other (hp | ⟨hp, hj⟩) hne
        · exact .inl hp
        · refine .inr ⟨List.mem_filter.2 ⟨hp, decide_eq_true fun ho => hne ⟨?_, ho⟩⟩, hj⟩
          subst ho
          exact Option.some.inj (hj.symm.trans hi)
      · exact lands_of_same (execAll_lands hc rounds path rest h) hg
    | line hl h =>
      have hs' : Secure hidden (Outside hidden) s :=
        hs.loosened fun i id hp => hp.resolve_right fun h => nomatch h.1
      have hline := exec_behaves hc rounds path line hl hg s (.refl _) hs'
      refine hline.bind fun flow t ht hts hf => ?_
      cases flow with
      | next =>
        exact execAll_lands hc rounds path rest h (hg.mono ht) (hts.loosened fun _ _ => .inl)
      | broke | continued | returned v => exact ⟨.refl _, hts, hf⟩

end

end

/-! ## Calls -/

theorem argumentFault?_ordinary {f : Closure} {args : List Value} {e : Fault}
    (h : argumentFault? f args = some e) : e.Ordinary := by
  unfold argumentFault? at h
  dsimp only at h
  by_cases hmost : f.params.length < args.length
  · rw [if_pos hmost] at h
    cases h
    exact rfl
  · rw [if_neg hmost] at h
    by_cases hleast : args.length < if f.optional then 0 else f.params.length
    · rw [if_pos hleast] at h
      cases h
      exact rfl
    · rw [if_neg hleast] at h
      cases h

/-- The variables of a call hold its arguments or nothing. -/
theorem frameFor_sound {f : Closure} {args : List Value} (ha : ∀ v ∈ args, Sound hidden frames v)
    (id : String) (v : Value) (h : (frameFor f args).lookup id = some (some v)) :
    Sound hidden frames v := by
  obtain ⟨before, rest, he, -⟩ := List.lookup_eq_some_iff.1 h
  have hm : (id, some v) ∈ frameFor f args := by
    rw [he]
    exact List.mem_append_right _ List.mem_cons_self
  obtain ⟨name, -, hn⟩ := List.mem_map.1 hm
  obtain ⟨-, hv⟩ := Prod.mk.inj hn
  split at hv
  · rename_i w hw
    cases hv
    obtain ⟨front, back, hz, -⟩ := List.lookup_eq_some_iff.1 hw
    have hz : (name, v) ∈ f.params.zip args := by
      rw [hz]
      exact List.mem_append_right _ List.mem_cons_self
    exact ha v (List.of_mem_zip hz).2
  · split at hv
    · cases hv
      exact sound_of_data _ rfl
    · cases hv

theorem frameFor_any {f : Closure} (args : List Value) {id : String} (h : id ∈ f.locals) :
    ((frameFor f args).any fun entry => entry.1 == id) = true :=
  List.any_eq_true.2 ⟨_, List.mem_map.2 ⟨id, h, rfl⟩, beq_self_eq_true id⟩

theorem call_behaves (steps : Nat) : CallsBehave hidden (call steps) := by
  -- a call runs its body with one step less, so the body may call whatever is sound by then
  induction steps with
  | zero =>
    intro frames f args _ _
    exact of_throw nofun
  | succ steps ih =>
    intro frames f args hf ha
    cases f with
    | function f =>
      have hcall := hf f rfl
      rw [call]
      split
      · exact of_fault (argumentFault?_ordinary ‹_›)
      · refine (newFrame_behaves (frameFor_sound ha)).bind fun gs i hgrows hi => ?_
        -- what the body calls is a variable of its own frame or guarded where it was defined
        have hg : Guarded hidden gs (i :: f.env) := fun id hid =>
          (hcall.guarded id hid).elim (fun hl => .here hi.1 (hi.2 id (frameFor_any args hl)))
            (fun h => .outer hi.1 (h.mono hgrows))
        have hbody := behaves_of_lands (execAll_lands ih steps f.path f.body hcall.body) hg
        refine hbody.bind fun _ flow _ hflow => ?_
        cases flow with
        | returned v => exact of_pure fun _ h => (hflow v rfl).mono h
        | next | broke | continued => exact of_pure fun _ _ => sound_of_data _ rfl
    | builtin b =>
      rw [call]
      exact of_keeps fun _ h => callBuiltin_keeps sound_of_data b args fun v hv => (ha v hv).mono h
    | method m =>
      rw [call]
      exact of_keeps fun _ h => callMethod_keeps sound_of_data m args fun v hv => (ha v hv).mono h
    | _ => exact of_fault rfl

/-! ## Programs -/

/-- The state in which the lines of a program start: none of its variables has a value. -/
def startState (names input : List String) (addresses : Addresses) : State :=
  { State.empty input addresses with frames := #[names.map fun name => (name, none)] }

theorem startState_secure (names input : List String) (addresses : Addresses) :
    Secure hidden loose (startState names input addresses) := by
  refine ⟨⟨fun ref v hv => ?_, fun ref e he => ?_⟩, fun i id v hv => ?_, Nat.one_pos⟩
  · simp [State.list, startState, State.empty] at hv
  · simp [State.object, startState, State.empty] at he
  · cases i with
    | zero =>
      obtain ⟨before, rest, he, -⟩ := List.lookup_eq_some_iff.1 hv
      have hm : (id, some v) ∈ (startState names input addresses).frames.getD 0 [] := by
        rw [he]
        exact List.mem_append_right _ List.mem_cons_self
      obtain ⟨name, -, hn⟩ := List.mem_map.1 hm
      cases hn
    | succ i => cases hv

/-- Definitions beside a main function that hides what they announce leave no other variable of the
outermost frame loose. -/
theorem hidden_lands {call : Caller} (rounds : Nat) (path : String) :
    ∀ (lines : List Target.Stmt) {s : State}, (∀ line ∈ lines, Generate.Hides hidden line) →
      Secure hidden (Outside hidden) s →
      Lands hidden (FlowSound hidden) s (execAll call rounds path [0] lines s)
  | [], s, _, hs => by
    rw [execAll]
    exact ⟨.refl _, hs, nofun⟩
  | line :: rest, s, h, hs => by
    obtain ⟨hline, hrest⟩ := List.forall_mem_cons.1 h
    rw [execAll]
    cases hline with
    | named hn =>
      refine define_lands (Outside hidden) hs (fun i hi _ => .inl ⟨?_, hn⟩) ?_ ?_
      · exact List.mem_singleton.1 (List.mem_of_find?_eq_some hi)
      · exact fun _ _ _ _ hp _ => hp
      · exact fun t _ ht => hidden_lands rounds path rest hrest ht
    | inside hb hl =>
      refine define_lands (Outside hidden) hs (fun i _ ref => .inr fun f hf => ?_) ?_ ?_
      · cases hf
        exact ⟨hb, fun id hid => .inl (hl id hid)⟩
      · exact fun _ _ _ _ hp _ => hp
      · exact fun t _ ht => hidden_lands rounds path rest hrest ht

/-- The main function is called by its name, so it must not be hidden. -/
theorem main_behaves (hm : "main" ∉ hidden) (steps : Nat) :
    Behaves hidden frames (Sound hidden) (eval (call steps) [0] (.call (.name "main") [])) := by
  rw [eval, eval, evalAll]
  refine (of_read fun s _ hs => lookup_sound hs fun h => absurd h hm).bind fun gs f _ hf => ?_
  exact call_behaves steps gs f [] hf nofun

theorem runBody_lands {p : Target.Program} (hm : "main" ∉ hidden) {steps : Nat}
    {input : List String} {addresses : Addresses}
    (h : Lands hidden (FlowSound hidden) (startState p.locals input addresses)
      (execAll (call steps) steps programPath [0] (p.stubs ++ p.body)
        (startState p.locals input addresses))) :
    Lands hidden (fun _ _ => True) (startState p.locals input addresses)
      (runBody steps p (.empty input addresses)) := by
  refine h.bind fun flow t hg hs hf => ?_
  have hmain : Lands hidden (fun _ _ => True) t ((do
      let _ ← eval (call steps) [0] (.call (.name "main") [])
      return .text (← get).output : Run Value) t) :=
    (main_behaves hm steps t (.refl _) hs).bind fun _ u _ hu _ => ⟨.refl _, hu, trivial⟩
  cases flow with
  | returned v => exact ⟨.refl _, hs, trivial⟩
  | next | broke | continued => exact hmain

/-- No fault of a program whose functions are implemented is that of a function without a body. -/
theorem runBody_ordinary {p : Target.Program} (hp : Generate.Implemented p) {steps : Nat}
    {input : List String} {addresses : Addresses} {f : Fault} {t : State}
    (hr : runBody steps p (.empty input addresses) = .error (.fault f) t) : f.Ordinary := by
  have hrun : ∃ hidden : List String, Lands hidden (fun _ _ => True)
      (startState p.locals input addresses) (runBody steps p (.empty input addresses)) := by
    cases hp with
    | settled h =>
      refine ⟨[], runBody_lands List.not_mem_nil ?_⟩
      exact execAll_lands (call_behaves steps) steps _ _ h nofun (startState_secure _ _ _)
    | hidden hm h =>
      exact ⟨_, runBody_lands hm (hidden_lands steps _ _ h (startState_secure _ _ _))⟩
  obtain ⟨hidden, hl⟩ := hrun
  rw [hr] at hl
  exact hl f rfl

/-- A run ends in a fault only if it stops with that fault. -/
theorem of_eq_faulted {r : EStateM.Result Stop State Value} {f : Fault} {t : State}
    (h : Outcome.of r = .faulted f t) : r = .error (.fault f) t := by
  unfold Outcome.of at h
  split at h <;> cases h
  rfl

theorem runWithin_implemented {p : Target.Program} (hp : Generate.Implemented p) (steps : Nat)
    (input : List String) (addresses : Addresses) (name : String) (t : State) :
    runWithin steps p input addresses ≠ .faulted (.unimplemented name) t := by
  intro h
  have hr := of_eq_faulted h
  unfold runFrom at hr
  cases hl : p.refusal? with
  | some l =>
    rw [hl] at hr
    cases hr
  | none =>
    rw [hl] at hr
    cases runBody_ordinary hp hr

/-- A function that is announced and defined is never called without its body: where each sequence
of statements defines the functions that it announces, in whatever order, no run of the program ends
in the fault of a function that is not implemented. That the definition is in the same sequence
matters: an announcement inside a function or block hides a definition around it. -/
theorem defined_functions_run {statements : List Stmt} {p : Target.Program}
    (h : Generate.program statements = .ok p)
    (hd : ∀ block ∈ statements :: Stmt.sequencesAll statements, DefinesAnnounced block)
    (steps : Nat) (input : List String) (addresses : Addresses) (name : String) (t : State) :
    runWithin steps p input addresses ≠ .faulted (.unimplemented name) t :=
  runWithin_implemented (Generate.program_implemented h hd) steps input addresses name t

/-- `int twice(int x); cout << twice(3); int twice(int x) { int sum(); int sum() { return x + x; }
return sum(); }` -/
def announcing : List Stmt := [
  .prototype "int" "twice" [⟨"int", "x"⟩],
  .print [.call (.name "twice") [.number "3"]],
  .function "int" "twice" [⟨"int", "x"⟩] [
    .prototype "int" "sum" [],
    .function "int" "sum" [] [.ret (some (.binary .add (.name "x") (.name "x")))],
    .ret (some (.call (.name "sum") []))]]

theorem defined_functions_run_announcing : ∃ p, Generate.program announcing = .ok p ∧
    (∀ block ∈ announcing :: Stmt.sequencesAll announcing, DefinesAnnounced block) ∧
    ∀ t, runWithin 9 p [] .unknown ≠ .faulted (.unimplemented "twice") t := by
  have hd : ∀ block ∈ announcing :: Stmt.sequencesAll announcing, DefinesAnnounced block := by
    decide +kernel
  obtain ⟨p, h⟩ : ∃ p, Generate.program announcing = .ok p := ⟨_, rfl⟩
  exact ⟨p, h, hd, defined_functions_run h hd 9 [] .unknown "twice"⟩

end ConsoleCpp.Machine
