/-
How a computation that can fail ends. `Ends fine fails` says what holds of its result, if there is
one, and of its error otherwise; it passes from the steps of a computation to the whole, so that
facts about a whole parser or generator are put together from facts about its parts.
-/

namespace ConsoleCpp

/-- The result, if there is one, is fine, and otherwise the error is one of those that `fails`
allows. -/
def Ends {ε α : Type} (fine : α → Prop) (fails : ε → Prop) : Except ε α → Prop
  | .ok a => fine a
  | .error e => fails e

namespace Ends

variable {ε α β : Type} {fine : α → Prop} {good : β → Prop} {fails : ε → Prop}
  {first : Except ε α} {next : α → Except ε β}

theorem bind (hf : Ends fine fails first) (hn : ∀ a, fine a → Ends good fails (next a)) :
    Ends good fails (first >>= next) := by
  cases first with
  | error e => exact hf
  | ok a => exact hn a hf

theorem imp {better : α → Prop} (h : ∀ a, fine a → better a) (hf : Ends fine fails first) :
    Ends better fails first := by
  cases first with
  | error e => exact hf
  | ok a => exact h a hf

/-- What is known of a result does not say why it is missing. -/
theorem of_ok (h : ∀ a, first = .ok a → fine a) : Ends fine (fun _ => True) first := by
  cases first with
  | error e => trivial
  | ok a => exact h a rfl

/-- Of a step only that it gave its result. -/
theorem step (hn : ∀ a, first = .ok a → Ends good (fun _ => True) (next a)) :
    Ends good (fun _ => True) (first >>= next) :=
  bind (of_ok fun _ h => h) hn

theorem ok {a : α} (h : Ends fine fails first) (he : first = .ok a) : fine a := by
  rw [he] at h
  exact h

theorem error {e : ε} (h : Ends fine fails first) (he : first = .error e) : fails e := by
  rw [he] at h
  exact h

/-- Of a step whose result nothing is known of, only the steps after it matter. -/
theorem bind_any (hn : ∀ a, Ends good (fun _ => True) (next a)) :
    Ends good (fun _ => True) (first >>= next) :=
  bind (of_ok fun _ _ => trivial) fun a _ => hn a

end Ends

end ConsoleCpp
