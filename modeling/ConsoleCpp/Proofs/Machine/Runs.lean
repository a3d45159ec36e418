/-
Runs from a state: how a run that has several parts goes on from part to part, and how a run ends
when only the kind of its end and the state that it leaves count.
-/
import ConsoleCpp.Machine.Value

namespace ConsoleCpp.Machine

variable {α β γ : Type} {x : Run α} {s t : State} {a : α} {e : Stop}

/-! ## One part after the other -/

theorem run_bind_ok {next : α → Run β} {b : β} (h : (x >>= next) s = .ok b t) :
    ∃ a u, x s = .ok a u ∧ next a u = .ok b t := by
  change EStateM.bind x next s = .ok b t at h
  unfold EStateM.bind at h
  split at h
  · rename_i a u ha
    exact ⟨a, u, ha, h⟩
  · cases h

theorem bind_of_ok {next : α → Run β} (h : x s = .ok a t) : (x >>= next) s = next a t := by
  show EStateM.bind x next s = next a t
  rw [EStateM.bind, h]

theorem bind_of_error {next : α → Run β} (h : x s = .error e t) :
    (x >>= next) s = .error e t := by
  show EStateM.bind x next s = .error e t
  rw [EStateM.bind, h]

/-! ## How runs end -/

inductive End where
  | finished
  | faulted
  | outOfSteps
deriving DecidableEq, Repr

/-- How a run from a state ends and the state it leaves. What it returns, and which fault it stops
with, does not count. -/
def ends (x : Run α) (s : State) : End × State :=
  match x s with
  | .ok _ t => (.finished, t)
  | .error (.fault _) t => (.faulted, t)
  | .error .outOfSteps t => (.outOfSteps, t)

theorem ends_of_ok (h : x s = .ok a t) : ends x s = (.finished, t) := by
  unfold ends
  rw [h]

theorem ends_of_fault {f : Fault} (h : x s = .error (.fault f) t) : ends x s = (.faulted, t) := by
  unfold ends
  rw [h]

theorem ok_of_ends (h : ends x s = (.finished, t)) : ∃ a, x s = .ok a t := by
  unfold ends at h
  split at h
  · cases h
    exact ⟨_, ‹_›⟩
  · cases h
  · cases h

theorem ends_bind_of_ok {next : α → Run β} (h : x s = .ok a t) :
    ends (x >>= next) s = ends (next a) t := by
  unfold ends
  rw [bind_of_ok h]

theorem ends_bind_of_error {next : α → Run β} (h : x s = .error e t) :
    ends (x >>= next) s = ends x s := by
  unfold ends
  rw [bind_of_error h, h]
  cases e <;> rfl

/-- Two runs end alike if they start alike and what follows ends alike. -/
theorem ends_bind_congr {next : α → Run β} {next' : α → Run γ}
    (h : ∀ a t, x s = .ok a t → ends (next a) t = ends (next' a) t) :
    ends (x >>= next) s = ends (x >>= next') s := by
  cases hx : x s with
  | ok a t => rw [ends_bind_of_ok hx, ends_bind_of_ok hx, h a t hx]
  | error e t => rw [ends_bind_of_error hx, ends_bind_of_error hx]

/-- What never stops and changes nothing can be left out at the end of a run. -/
theorem ends_bind_idle {next : α → Run β} (h : ∀ a t, x s = .ok a t → ∃ b, next a t = .ok b t) :
    ends (x >>= next) s = ends x s := by
  cases hx : x s with
  | ok a t =>
    obtain ⟨b, hb⟩ := h a t hx
    rw [ends_bind_of_ok hx, ends_of_ok hb, ends_of_ok hx]
  | error e t => exact ends_bind_of_error hx

theorem ends_bind_pure (x : Run α) (b : β) (s : State) : ends (x >>= fun _ => pure b) s = ends x s :=
  ends_bind_idle fun _ _ _ => ⟨b, rfl⟩

/-! ## Runs that change nothing -/

/-- A run that finishes or faults and leaves the state as it is. -/
def Steady (x : Run α) (s : State) : Prop := (∃ a, x s = .ok a s) ∨ ∃ f, x s = .error (.fault f) s

/-- The order of two runs that change nothing makes no difference. -/
theorem ends_swap {y : Run β} (hx : Steady x s) (hy : Steady y s) (next : α → β → Run γ) :
    ends (do let a ← x; let b ← y; next a b) s = ends (do let b ← y; let a ← x; next a b) s := by
  rcases hx with ⟨a, hx⟩ | ⟨f, hx⟩ <;> rcases hy with ⟨b, hy⟩ | ⟨g, hy⟩
  · rw [ends_bind_of_ok hx, ends_bind_of_ok hy, ends_bind_of_ok hy, ends_bind_of_ok hx]
  · rw [ends_bind_of_ok hx, ends_bind_of_error hy, ends_bind_of_error hy]
  · rw [ends_bind_of_error hx, ends_bind_of_ok hy, ends_bind_of_error hx]
  · rw [ends_bind_of_error hx, ends_bind_of_error hy, ends_of_fault hx,
      ends_of_fault hy]

end ConsoleCpp.Machine
