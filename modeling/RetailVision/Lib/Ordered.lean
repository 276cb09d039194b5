/-
The orders of a strictly ordered field, where they are opened: instances that
`IsStrictOrderedRing` gives, found before any other is looked for.
-/
import Mathlib.Algebra.Order.Field.Basic

set_option linter.all false

namespace RetailVision.Lib.Ordered

variable {K : Type*} [Field K] [LinearOrder K] [IsStrictOrderedRing K]

scoped instance (priority := high) isOrderedRing : IsOrderedRing K := IsStrictOrderedRing.toIsOrderedRing

scoped instance (priority := high) isOrderedAddMonoid : IsOrderedAddMonoid K := IsOrderedRing.toIsOrderedAddMonoid

scoped instance (priority := high) addLeftMono : AddLeftMono K := IsOrderedAddMonoid.toAddLeftMono

scoped instance (priority := high) addRightMono : AddRightMono K := IsOrderedAddMonoid.toAddRightMono

end RetailVision.Lib.Ordered
