/-
A mailbox of one place: what is put overwrites what is there, which is then
dropped and counted. What has been taken out so far, with what is there, is
what has been put, in order, less what was dropped (`Kept`).
-/
import Mathlib.Data.List.Basic

set_option linter.all false

namespace RetailVision.Lib.Mailbox

variable {α : Type*}

/-- The account of a mailbox: what has been put and taken, what is there, and
how many were dropped. -/
structure Kept (puts taken : List α) (slot : Option α) (dropped : Nat) : Prop where
  order : (taken ++ slot.toList).Sublist puts
  count : puts.length = taken.length + dropped + slot.toList.length

variable {puts taken : List α} {slot : Option α} {dropped : Nat} {x : α}

theorem Kept.empty : Kept ([] : List α) [] none 0 := ⟨.slnil, rfl⟩

/-- What is taken has been put, in the same order. -/
theorem Kept.taken_sublist (hk : Kept puts taken slot dropped) : taken.Sublist puts :=
  (List.sublist_append_left ..).trans hk.order

theorem Kept.put (hk : Kept puts taken slot dropped) :
    Kept (puts ++ [x]) taken (some x) (if slot.isSome then dropped + 1 else dropped) where
  order := hk.taken_sublist.append (List.Sublist.refl [x])
  count := by
    have := hk.count
    cases slot with
    | none => simpa using this
    | some y =>
      simp only [Option.toList_some, List.length_append, List.length_singleton, Option.isSome_some, if_true] at this ⊢
      omega

theorem Kept.take (hk : Kept puts taken (some x) dropped) : Kept puts (taken ++ [x]) none dropped where
  order := by simpa using hk.order
  count := by
    have := hk.count
    simp only [Option.toList_some, List.length_append, List.length_singleton, Option.toList_none, List.length_nil]
      at this ⊢
    omega

end RetailVision.Lib.Mailbox
