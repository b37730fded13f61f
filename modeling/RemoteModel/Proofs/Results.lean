import Mathlib.Data.List.Forall2
import RemoteModel.Failure

/-!
Computations that succeeded or failed. What one that succeeded is composed of has succeeded as well, and
one that failed has failed at one of its steps.
-/

namespace RemoteModel

variable {ε α β : Type}

theorem ok_of_bind {x : Except ε α} {next : α → Except ε β} {v : β} (h : x >>= next = .ok v) :
    ∃ u, x = .ok u ∧ next u = .ok v := by
  cases x with
  | error => cases h
  | ok u => exact ⟨u, rfl, h⟩

theorem ok_of_unless {b : Bool} {f : ε} {next : Unit → Except ε β} {v : β}
    (h : (if b = true then throw f >>= next else next ()) = .ok v) :
    b = false ∧ next () = .ok v := by
  cases b with
  | false => exact ⟨rfl, h⟩
  | true => cases h

theorem error_of_bind {x : Except ε α} {next : α → Except ε β} {f : ε} :
    x >>= next = .error f ↔ x = .error f ∨ ∃ u, x = .ok u ∧ next u = .error f := by
  cases x with
  | error g =>
      constructor
      · exact fun h => .inl (by cases h; rfl)
      · rintro (h | ⟨_, h, _⟩)
        · cases h
          rfl
        · cases h
  | ok u =>
      constructor
      · exact fun h => .inr ⟨u, rfl, h⟩
      · rintro (h | ⟨_, h, hnext⟩)
        · cases h
        · cases h
          exact hnext

theorem ok_of_map {x : Except ε α} {g : α → β} {v : β} :
    x.map g = .ok v ↔ ∃ u, x = .ok u ∧ g u = v := by
  cases x <;> exact Iff.of_eq (by simp [Except.map])

theorem error_of_map {x : Except ε α} {g : α → β} {f : ε} : x.map g = .error f ↔ x = .error f := by
  cases x <;> exact Iff.of_eq (by simp [Except.map])

theorem ok_of_mapError {ε' : Type} {x : Except ε α} {g : ε → ε'} {v : α} :
    x.mapError g = .ok v ↔ x = .ok v := by
  cases x <;> exact Iff.of_eq (by simp [Except.mapError])

theorem ok_of_isOk {x : Except ε α} (h : x.isOk = true) : ∃ v, x = .ok v := by
  cases x with
  | error => cases h
  | ok v => exact ⟨v, rfl⟩

theorem toOption_eq_some {x : Except ε α} {v : α} : x.toOption = some v ↔ x = .ok v := by
  cases x <;> exact Iff.of_eq (by simp [Except.toOption])

/-- Two computations that fail with the same error or give values that are related. -/
inductive Alike (R : α → β → Prop) : Except ε α → Except ε β → Prop
  | error (f : ε) : Alike R (.error f) (.error f)
  | ok {u : α} {v : β} : R u v → Alike R (.ok u) (.ok v)

namespace Alike

variable {α' β' : Type} {R : α → β → Prop} {S : α' → β' → Prop} {x : Except ε α} {y : Except ε β}

theorem bind (h : Alike R x y) {next : α → Except ε α'} {next' : β → Except ε β'}
    (hnext : ∀ u v, R u v → Alike S (next u) (next' v)) : Alike S (x >>= next) (y >>= next') := by
  cases h with
  | error f => exact .error f
  | ok huv => exact hnext _ _ huv

theorem map (h : Alike R x y) {g : α → α'} {g' : β → β'} (hg : ∀ u v, R u v → S (g u) (g' v)) :
    Alike S (x.map g) (y.map g') := by
  cases h with
  | error f => exact .error f
  | ok huv => exact .ok (hg _ _ huv)

theorem mono {R' : α → β → Prop} (h : Alike R x y) (himp : ∀ u v, R u v → R' u v) : Alike R' x y := by
  cases h with
  | error f => exact .error f
  | ok huv => exact .ok (himp _ _ huv)

theorem of_eq {R : α → α → Prop} (hrefl : ∀ v, R v v) (x : Except ε α) : Alike R x x := by
  cases x with
  | error f => exact .error f
  | ok v => exact .ok (hrefl v)

theorem mapM {γ : Type} {g : γ → Except ε α} {g' : γ → Except ε β}
    (hg : ∀ z, Alike R (g z) (g' z)) (zs : List γ) :
    Alike (List.Forall₂ R) (zs.mapM g) (zs.mapM g') := by
  induction zs with
  | nil => exact .ok .nil
  | cons z zs ih =>
      rw [List.mapM_cons, List.mapM_cons]
      exact (hg z).bind fun u v huv => ih.bind fun us vs hall => .ok (.cons huv hall)

end Alike

theorem ErrorClass.mem_all (c : ErrorClass) : c ∈ all := by
  simp only [all, List.mem_append, List.mem_map]
  cases c with
  | own e => exact .inl (.inl (.inl (.inl (.inl ⟨e, by cases e <;> decide, rfl⟩))))
  | basic e => exact .inl (.inl (.inl (.inl (.inr ⟨e, by cases e <;> decide, rfl⟩))))
  | http e => exact .inl (.inl (.inl (.inr ⟨e, by cases e <;> decide, rfl⟩)))
  | wire e => exact .inl (.inl (.inr ⟨e, by cases e <;> decide, rfl⟩))
  | cloud e => exact .inl (.inr ⟨e, by cases e <;> decide, rfl⟩)
  | document => exact .inr (by decide)
  | archive => exact .inr (by decide)
  | sameFile => exact .inr (by decide)
  | settings => exact .inr (by decide)

end RemoteModel
