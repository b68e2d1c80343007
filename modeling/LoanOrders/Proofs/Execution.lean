import LoanOrders.Obligation.Execution
import LoanOrders.Proofs.Outcome

/-! Which orders offer an execution: only the one that the slot of the offer holds, and only while its
condition holds. -/

namespace LoanOrders

variable {o : Obligation} {market : Market}

theorem Order.execution_eq_none {order : Order} (h : order.condition.evaluate o = .ok none) :
    order.execution market o = .ok none := by
  rw [execution, h, ok_bind]
  rfl

theorem Slots.exists_decode_of_orders {s : Slots} {orders : List (Option Order)} {i : Nat}
    {order : Option Order} (h : s.orders = .ok orders) (hi : orders[i]? = some order) :
    ∃ index : Fin 2, i = index ∧ Order.decode (s.get index) = .ok order := by
  simp only [Slots.orders, toList, List.mapM_cons, List.mapM_nil, bind_eq_ok, pure_eq_ok,
    Except.ok.injEq] at h
  obtain ⟨a, ha, _, ⟨b, hb, _, rfl, rfl⟩, rfl⟩ := h
  match i with
  | 0 =>
    obtain rfl : a = order := by simpa using hi
    exact ⟨0, rfl, ha⟩
  | 1 =>
    obtain rfl : b = order := by simpa using hi
    exact ⟨1, rfl, hb⟩
  | i + 2 => simp at hi

/-- An offer comes from the order in the slot that it names. -/
theorem Obligation.exists_order_of_mem_executions {offers : List (Nat × Execution)}
    {e : Nat × Execution} (h : o.executions market = .ok offers) (he : e ∈ offers) :
    ∃ (index : Fin 2) (order : Order), e.1 = index ∧
      Order.decode (o.slots.get index) = .ok (some order) ∧
      order.execution market o = .ok (some e.2) := by
  simp only [executions, bind_eq_ok, pure_eq_ok, Except.ok.injEq] at h
  obtain ⟨orders, horders, found, hfound, rfl⟩ := h
  simp only [List.mem_filterMap, id_eq, exists_eq_right] at he
  obtain ⟨⟨i, slot⟩, hmem, hoffer⟩ := exists_mem_of_mapM_ok hfound he
  obtain ⟨j, hj, hpair⟩ := List.mem_mapIdx.mp hmem
  obtain ⟨rfl, rfl⟩ := Prod.mk.inj hpair
  obtain ⟨index, hindex, hdecode⟩ :=
    Slots.exists_decode_of_orders horders (List.getElem?_eq_getElem hj)
  cases hslot : orders[j] with
  | none => simp [hslot] at hoffer
  | some order =>
    simp only [hslot, bind_eq_ok, Except.ok.injEq, Option.map_eq_some_iff] at hoffer
    obtain ⟨_, hexec, x, rfl, rfl⟩ := hoffer
    rw [hslot] at hdecode
    exact ⟨index, order, hindex, hdecode, hexec⟩

end LoanOrders
