/-
Hashing by iteration: a message is padded to blocks, and the blocks go through a
compression function one after the other. Where the padding loses nothing, and
paddings of different lengths end with different blocks, two messages of one
digest give two inputs of the compression function of one value
(`collision_of_digest`).
-/
import Mathlib.Logic.Function.Basic
import Mathlib.Data.List.Induction

set_option linter.all false

namespace RetailVision.Lib.MerkleDamgard

variable {S B M : Type*} (compress : S → B → S)

/-- Two different inputs come to one value. -/
def Collision : Prop := ∃ s b s' b', (s, b) ≠ (s', b') ∧ compress s b = compress s' b'

def digest (iv : S) (pad : M → List B) (m : M) : S := (pad m).foldl compress iv

variable {compress} {iv s s' : S} {b b' : B} {bs bs' : List B} {pad : M → List B} {m m' : M}

theorem foldl_snoc : (bs ++ [b]).foldl compress s = compress (bs.foldl compress s) b := by
  rw [List.foldl_append, List.foldl_cons, List.foldl_nil]

/-- Different last blocks. -/
theorem collision_of_last (hb : b ≠ b') (h : (bs ++ [b]).foldl compress s = (bs' ++ [b']).foldl compress s') : Collision compress := by
  rw [foldl_snoc, foldl_snoc] at h
  exact ⟨_, b, _, b', fun heq => hb (Prod.mk.inj heq).2, h⟩

/-- Different blocks, as many of them: going back from the end, the first
difference is met after one value. -/
theorem collision_of_length (hlen : bs.length = bs'.length) (hne : bs ≠ bs') (h : bs.foldl compress s = bs'.foldl compress s') :
    Collision compress := by
  induction bs using List.reverseRecOn generalizing bs' with
  | nil => exact absurd (List.length_eq_zero_iff.mp hlen.symm).symm hne
  | append_singleton bs b ih =>
    obtain rfl | ⟨bs', b', rfl⟩ := List.eq_nil_or_concat bs'
    · simp at hlen
    rw [List.concat_eq_append] at hlen hne h
    by_cases hb : b = b'
    · subst hb
      have hrest : bs ≠ bs' := fun heq => hne (by rw [heq])
      rw [foldl_snoc, foldl_snoc] at h
      by_cases hs : bs.foldl compress s = bs'.foldl compress s'
      · exact ih (by simpa using hlen) hrest hs
      · exact ⟨_, b, _, b, fun heq => hs (Prod.mk.inj heq).1, h⟩
    · exact collision_of_last hb h

/-- **Two messages of one digest** give a collision of the compression function. -/
theorem collision_of_digest (hinj : Function.Injective pad)
    (hlast : ∀ m m', (pad m).length ≠ (pad m').length → ∃ init b init' b', pad m = init ++ [b] ∧ pad m' = init' ++ [b'] ∧ b ≠ b')
    (hne : m ≠ m') (h : digest compress iv pad m = digest compress iv pad m') : Collision compress := by
  rw [digest, digest] at h
  by_cases hlen : (pad m).length = (pad m').length
  · exact collision_of_length hlen (fun heq => hne (hinj heq)) h
  · obtain ⟨init, b, init', b', hm, hm', hb⟩ := hlast m m' hlen
    rw [hm, hm'] at h
    exact collision_of_last hb h

end RetailVision.Lib.MerkleDamgard
