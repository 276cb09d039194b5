/-
What a broker keeps of a topic with a retained message: the message, and the
sessions that are connected, one at most for a client, each with a will that is
published when it ends without a word. Where no will says `p`, the topic says `p`
only as long as there is a session that has said it last and is still connected
(`Backed`); with one client, exactly that long (`Shown`).
-/
import Mathlib.Logic.Function.Basic

set_option linter.all false

namespace RetailVision.Lib

/-- A session: its connection, its will, and what has been published in it last. -/
structure Session (P : Type*) where
  conn : Nat
  will : P
  told : Option P

structure Topic (I P : Type*) where
  retained : Option P
  session : I → Option (Session P)

namespace Topic

variable {I P : Type*} [DecidableEq I]

/-- A session ends without a word: its will is published. -/
def lose (b : Topic I P) (i : I) : Topic I P :=
  match b.session i with
  | none => b
  | some s => { retained := some s.will, session := Function.update b.session i none }

/-- A client connects; the session it had ends without a word. -/
def connect (b : Topic I P) (i : I) (conn : Nat) (will : P) : Topic I P :=
  { b.lose i with session := Function.update (b.lose i).session i (some { conn, will, told := none }) }

def publish (b : Topic I P) (i : I) (p : P) : Topic I P :=
  match b.session i with
  | none => b
  | some s => { retained := some p, session := Function.update b.session i (some { s with told := some p }) }

/-- A session ends by a word: its will is dropped. -/
def disconnect (b : Topic I P) (i : I) : Topic I P := { b with session := Function.update b.session i none }

variable {b : Topic I P} {i k : I} {s : Session P} {p q : P} {conn : Nat} {will : P}

/-! ## The sessions -/

theorem session_lose_self : (b.lose i).session i = none := by
  rw [lose]
  cases hs : b.session i with
  | none => exact hs
  | some s => simp

theorem session_lose_other (h : k ≠ i) : (b.lose i).session k = b.session k := by
  rw [lose]
  cases b.session i with
  | none => rfl
  | some s => exact Function.update_of_ne h _ _

theorem session_connect_self : (b.connect i conn will).session i = some { conn, will, told := none } := Function.update_self _ _ _

theorem session_connect_other (h : k ≠ i) : (b.connect i conn will).session k = b.session k :=
  (Function.update_of_ne h _ _).trans (session_lose_other h)

theorem session_publish_self (h : b.session i = some s) : (b.publish i p).session i = some { s with told := some p } := by
  rw [publish, h]
  exact Function.update_self _ _ _

theorem session_publish_other (h : k ≠ i) : (b.publish i p).session k = b.session k := by
  rw [publish]
  cases b.session i with
  | none => rfl
  | some s => exact Function.update_of_ne h _ _

theorem session_disconnect_self : (b.disconnect i).session i = none := Function.update_self _ _ _

theorem session_disconnect_other (h : k ≠ i) : (b.disconnect i).session k = b.session k := Function.update_of_ne h _ _

/-! ## What the topic says is still meant -/

/-- The topic says `p` only where a session that is connected has said it last. -/
def Backed (p : P) (b : Topic I P) : Prop := b.retained = some p → ∃ i s, b.session i = some s ∧ s.told = some p

/-- The will of no session is `p`. -/
def NoWill (p : P) (b : Topic I P) : Prop := ∀ i s, b.session i = some s → s.will ≠ p

theorem Backed.lose (h : Backed p b) (hw : NoWill p b) (i : I) : Backed p (b.lose i) := by
  cases hs : b.session i with
  | none => simpa [Topic.lose, hs] using h
  | some s =>
    intro heq
    rw [Topic.lose, hs] at heq
    cases heq
    exact absurd rfl (hw i s hs)

theorem Backed.connect (h : Backed p b) (hw : NoWill p b) (i : I) (conn : Nat) (will : P) : Backed p (b.connect i conn will) := by
  intro heq
  obtain ⟨k, s, hs, htold⟩ := h.lose hw i heq
  have hk : k ≠ i := by
    rintro rfl
    rw [session_lose_self] at hs
    cases hs
  exact ⟨k, s, by rw [session_connect_other hk, ← hs, session_lose_other hk], htold⟩

theorem Backed.publish (h : Backed p b) (i : I) (q : P) : Backed p (b.publish i q) := by
  cases hs : b.session i with
  | none => simpa [Topic.publish, hs] using h
  | some s =>
    intro heq
    rw [Topic.publish, hs] at heq
    cases heq
    exact ⟨i, _, session_publish_self hs, rfl⟩

/-- The one rule that asks something of the client: a session is not to be ended
by a word as long as it says `p`. -/
theorem Backed.disconnect (h : Backed p b) (hs : ∀ s, b.session i = some s → s.told ≠ some p) : Backed p (b.disconnect i) := by
  intro heq
  obtain ⟨k, s, hk, htold⟩ := h heq
  have hne : k ≠ i := by
    rintro rfl
    exact hs s hk htold
  exact ⟨k, s, by rw [session_disconnect_other hne, hk], htold⟩

theorem NoWill.lose (h : NoWill p b) (i : I) : NoWill p (b.lose i) := by
  intro k s hs
  by_cases hk : k = i
  · subst hk
    rw [session_lose_self] at hs
    cases hs
  · exact h k s (by rw [← hs, session_lose_other hk])

theorem NoWill.connect (h : NoWill p b) (hwill : will ≠ p) (i : I) (conn : Nat) : NoWill p (b.connect i conn will) := by
  intro k s hs
  by_cases hk : k = i
  · subst hk
    rw [session_connect_self] at hs
    cases hs
    exact hwill
  · exact h k s (by rw [← hs, session_connect_other hk])

theorem NoWill.publish (h : NoWill p b) (i : I) (q : P) : NoWill p (b.publish i q) := by
  intro k s hs
  by_cases hk : k = i
  · subst hk
    cases hold : b.session k with
    | none =>
      rw [Topic.publish, hold] at hs
      exact h k s hs
    | some s' =>
      rw [session_publish_self hold] at hs
      cases hs
      exact h k s' hold
  · exact h k s (by rw [← hs, session_publish_other hk])

theorem NoWill.disconnect (h : NoWill p b) (i : I) : NoWill p (b.disconnect i) := by
  intro k s hs
  by_cases hk : k = i
  · subst hk
    rw [session_disconnect_self] at hs
    cases hs
  · exact h k s (by rw [← hs, session_disconnect_other hk])

/-! ## One client -/

/-- There is no other client, and as long as it is connected and has said `p` last, the topic says `p`. -/
structure Shown (p : P) (i : I) (b : Topic I P) : Prop where
  only : ∀ k, k ≠ i → b.session k = none
  shown : ∀ s, b.session i = some s → s.told = some p → b.retained = some p

theorem Shown.lose (h : Shown p i b) : Shown p i (b.lose i) where
  only := fun k hk => by rw [session_lose_other hk, h.only k hk]
  shown := fun s hs => by
    rw [session_lose_self] at hs
    cases hs

theorem Shown.connect (h : Shown p i b) (conn : Nat) (will : P) : Shown p i (b.connect i conn will) where
  only := fun k hk => by rw [session_connect_other hk, h.only k hk]
  shown := fun s hs htold => by
    rw [session_connect_self] at hs
    cases hs
    cases htold

theorem Shown.publish (h : Shown p i b) (q : P) : Shown p i (b.publish i q) := by
  cases hs : b.session i with
  | none => simpa [Topic.publish, hs] using h
  | some s =>
    refine ⟨fun k hk => by rw [session_publish_other hk, h.only k hk], fun s' hs' htold => ?_⟩
    rw [session_publish_self hs] at hs'
    cases hs'
    rw [Topic.publish, hs]
    exact htold

theorem Shown.disconnect (h : Shown p i b) : Shown p i (b.disconnect i) where
  only := fun k hk => by rw [session_disconnect_other hk, h.only k hk]
  shown := fun s hs => by
    rw [session_disconnect_self] at hs
    cases hs

end Topic

end RetailVision.Lib
