/-!
Powers of natural numbers. Where this namespace is open its instance is preferred, so that a power
stands for the same term whichever other instances are known.
-/

namespace LoanOrders.Power

scoped instance (priority := 2000) natural : Pow Nat Nat := instPowNat

end LoanOrders.Power
