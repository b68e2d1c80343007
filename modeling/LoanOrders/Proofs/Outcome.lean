import Mathlib
import LoanOrders.Error

/-! Taking an outcome apart: a chain of steps succeeds exactly if each of them does. -/

namespace LoanOrders

deriving instance DecidableEq for Error

variable {α β ε : Type}

theorem bind_eq_ok {x : Except ε α} {f : α → Except ε β} {b : β} :
    x >>= f = .ok b ↔ ∃ a, x = .ok a ∧ f a = .ok b := by
  cases x with
  | ok a => simp [bind, Except.bind]
  | error e => simp [bind, Except.bind]

theorem bind_eq_error {x : Except ε α} {f : α → Except ε β} {e : ε} :
    x >>= f = .error e ↔ x = .error e ∨ ∃ a, x = .ok a ∧ f a = .error e := by
  cases x with
  | ok a => simp [bind, Except.bind]
  | error e => simp [bind, Except.bind]

theorem map_eq_ok {f : α → β} {x : Except ε α} {b : β} :
    f <$> x = .ok b ↔ ∃ a, x = .ok a ∧ f a = b := by
  cases x <;> simp [Functor.map, Except.map]

theorem exists_of_isOk {x : Except ε α} (h : x.isOk) : ∃ a, x = .ok a := by
  cases x with
  | ok a => exact ⟨a, rfl⟩
  | error => simp [Except.isOk, Except.toBool] at h

@[simp] theorem ok_bind (a : α) (f : α → Except ε β) : (Except.ok a >>= f) = f a := rfl

@[simp] theorem error_bind (e : ε) (f : α → Except ε β) : (Except.error e >>= f) = .error e := rfl

@[simp] theorem pure_eq_ok (a : α) : (pure a : Except ε α) = .ok a := rfl

@[simp] theorem throw_eq_error (e : ε) : (throw e : Except ε α) = .error e := rfl

@[simp] theorem liftM_ok (a : α) : (liftM (Except.ok a : Except Signal α) : Result α) = .ok a := rfl

@[simp] theorem liftM_error (s : Signal) :
    (liftM (Except.error s : Except Signal α) : Result α) = .error (.signal s) := rfl

theorem liftM_eq_ok {x : Except Signal α} {a : α} : (liftM x : Result α) = .ok a ↔ x = .ok a := by
  cases x <;> simp

theorem check_eq_ok {condition : Bool} {e : Error} {u : Unit} :
    check condition e = .ok u ↔ condition = true := by
  cases condition <;> simp [check]

@[simp] theorem check_true (e : Error) : check true e = .ok () := rfl

@[simp] theorem check_false (e : Error) : check false e = .error e := rfl

theorem exists_mem_of_mapM_ok {f : α → Except ε β} {l : List α} {bs : List β} {b : β}
    (h : l.mapM f = .ok bs) (hb : b ∈ bs) : ∃ a ∈ l, f a = .ok b := by
  induction l generalizing bs with
  | nil =>
    obtain rfl : [] = bs := Except.ok.inj h
    cases hb
  | cons a l ih =>
    rw [List.mapM_cons] at h
    obtain ⟨c, hc, h⟩ := bind_eq_ok.mp h
    obtain ⟨cs, hcs, h⟩ := bind_eq_ok.mp h
    obtain rfl : c :: cs = bs := Except.ok.inj h
    rcases List.mem_cons.mp hb with rfl | hb
    · exact ⟨a, List.mem_cons_self, hc⟩
    · obtain ⟨a', ha', hb'⟩ := ih hcs hb
      exact ⟨a', List.mem_cons_of_mem _ ha', hb'⟩

theorem single_eq_ok {item : String} {l : List α} {a : α} : single item l = .ok a ↔ l = [a] := by
  rcases l with - | ⟨b, - | ⟨c, l⟩⟩ <;> simp [single]

end LoanOrders
