/-
Readers of untrusted values: a reader has a value, refuses with an error, or
throws. A cascade of readers throws where the first one that does not go on
throws (`bind_throws`), and a loop over the elements of a list throws exactly
where one throws whose predecessors all went through (`forEach_throws`).
-/
import Mathlib.Data.List.Forall2

set_option linter.all false

namespace RetailVision.Lib

inductive Checked (ε α : Type)
  | ok (a : α)
  | refused (err : ε)
  | threw (what : String)

namespace Checked

variable {ε α β γ : Type}

protected def bind (x : Checked ε α) (f : α → Checked ε β) : Checked ε β :=
  match x with
  | ok a => f a
  | refused err => refused err
  | threw what => threw what

instance : Monad (Checked ε) where
  pure := ok
  bind := Checked.bind

/-- Refuses unless the condition holds. -/
def require (p : Prop) [Decidable p] (err : ε) : Checked ε Unit := if p then ok () else refused err

def Throws : Checked ε α → Prop
  | threw _ => True
  | _ => False

/-- What it refuses with is as `P` says. -/
def Tells (P : ε → Prop) : Checked ε α → Prop
  | refused err => P err
  | _ => True

variable {x : Checked ε α} {f : α → Checked ε β} {P : ε → Prop} {p : Prop} [Decidable p] {err : ε} {what : String} {a : α} {b : β}

@[simp] theorem pure_eq : (pure a : Checked ε α) = ok a := rfl
@[simp] theorem ok_bind : (ok a : Checked ε α) >>= f = f a := rfl
@[simp] theorem refused_bind : (refused err : Checked ε α) >>= f = refused err := rfl
@[simp] theorem threw_bind : (threw what : Checked ε α) >>= f = threw what := rfl

@[simp] theorem throws_ok : ¬ (ok a : Checked ε α).Throws := id
@[simp] theorem throws_refused : ¬ (refused err : Checked ε α).Throws := id
@[simp] theorem throws_threw : (threw what : Checked ε α).Throws := trivial
@[simp] theorem tells_ok : (ok a : Checked ε α).Tells P := trivial
@[simp] theorem tells_refused : (refused err : Checked ε α).Tells P ↔ P err := Iff.rfl
@[simp] theorem tells_threw : (threw what : Checked ε α).Tells P := trivial

@[simp] theorem require_throws : ¬ (require p err).Throws := by
  unfold require
  split <;> exact id

@[simp] theorem require_tells : (require p err).Tells P ↔ (¬ p → P err) := by
  unfold require
  split
  · next h => simp [h]
  · next h => simp [h]

@[simp] theorem require_ok {u : Unit} : require p err = ok u ↔ p := by
  unfold require
  split
  · next h => simp [h]
  · next h => simp [h]

/-- A cascade throws where its first part does, or goes on to what does. -/
theorem bind_throws : (x >>= f).Throws ↔ x.Throws ∨ ∃ a, x = ok a ∧ (f a).Throws := by
  cases x with
  | ok a => simp
  | refused err => simp
  | threw what => simp

theorem bind_tells (hx : x.Tells P) (hf : ∀ a, (f a).Tells P) : (x >>= f).Tells P := by
  cases x with
  | ok a => exact hf a
  | refused err => exact hx
  | threw what => trivial

theorem bind_ok : x >>= f = ok b ↔ ∃ a, x = ok a ∧ f a = ok b := by
  cases x with
  | ok a => simp
  | refused err => simp
  | threw what => simp

theorem Tells.mono {Q : ε → Prop} (hx : x.Tells P) (h : ∀ err, P err → Q err) : x.Tells Q := by
  cases x with
  | ok a => trivial
  | refused err => exact h err hx
  | threw what => trivial

/-- A reader that never refuses throws where it does not go through. -/
theorem throws_of_never_refuses (hx : x.Tells fun _ => False) : x.Throws ↔ ¬ ∃ a, x = ok a := by
  cases x with
  | ok a => simp
  | refused err => exact hx.elim
  | threw what => simp

/-- A cascade whose first part never throws. -/
theorem bind_not_throws (hx : ¬ x.Throws) (hf : ∀ a, ¬ (f a).Throws) : ¬ (x >>= f).Throws := by
  rw [bind_throws]
  rintro (h | ⟨a, -, h⟩)
  · exact hx h
  · exact hf a h

/-- Reads the elements in order, each knowing what the ones before have given. -/
def forEach (f : List β → α → Checked ε β) (acc : List β) : List α → Checked ε (List β)
  | [] => ok acc
  | x :: xs => do
    let b ← f acc x
    forEach f (acc ++ [b]) xs

variable {g : List β → α → Checked ε β} {acc bs : List β} {xs : List α}

theorem forEach_tells (hg : ∀ acc x, (g acc x).Tells P) : (forEach g acc xs).Tells P := by
  induction xs generalizing acc with
  | nil => trivial
  | cons x xs ih => exact bind_tells (hg acc x) fun b => ih

theorem forEach_not_throws (hg : ∀ acc x, ¬ (g acc x).Throws) : ¬ (forEach g acc xs).Throws := by
  induction xs generalizing acc with
  | nil => exact id
  | cons x xs ih => exact bind_not_throws (hg acc x) fun b => ih

/-- **A loop throws where an element does** whose predecessors went through. -/
theorem forEach_throws : (forEach g acc xs).Throws ↔
    ∃ before x after bs, xs = before ++ x :: after ∧ forEach g acc before = ok bs ∧ (g bs x).Throws := by
  induction xs generalizing acc with
  | nil => simp [forEach]
  | cons y xs ih =>
    simp only [forEach, bind_throws, ih]
    constructor
    · rintro (h | ⟨b, hb, before, x, after, bs, rfl, hbs, hx⟩)
      · exact ⟨[], y, xs, acc, rfl, rfl, h⟩
      · exact ⟨y :: before, x, after, bs, rfl, bind_ok.mpr ⟨b, hb, hbs⟩, hx⟩
    · rintro ⟨before, x, after, bs, he, hbs, hx⟩
      cases before with
      | nil =>
        cases hbs
        cases he
        exact .inl hx
      | cons z before =>
        cases he
        obtain ⟨b, hb, hbs⟩ := bind_ok.mp hbs
        exact .inr ⟨b, hb, before, x, after, bs, rfl, hbs, hx⟩

/-- The same, where what goes through and what throws is said of the elements:
an element must be as it is said, unless one before it is refused. -/
theorem forEach_throws_iff {Good : List α → Prop} {Typed : List α → α → Prop}
    (hgood : ∀ before, (∃ bs, forEach g [] before = ok bs) ↔ Good before)
    (hthrows : ∀ before bs x, forEach g [] before = ok bs → ((g bs x).Throws ↔ ¬ Typed before x)) :
    (forEach g [] xs).Throws ↔ ¬ ∀ before x after, xs = before ++ x :: after → Good before → Typed before x := by
  rw [forEach_throws]
  constructor
  · rintro ⟨before, x, after, bs, he, hbs, hx⟩ hall
    exact (hthrows before bs x hbs).mp hx (hall before x after he ((hgood before).mp ⟨bs, hbs⟩))
  · intro hno
    by_contra hth
    refine hno fun before x after he hb => ?_
    by_contra htyped
    obtain ⟨bs, hbs⟩ := (hgood before).mpr hb
    exact hth ⟨before, x, after, bs, he, hbs, (hthrows before bs x hbs).mpr htyped⟩

/-- What a loop accepts whose elements do not depend on each other. -/
theorem forEach_accepts {Good : α → Prop} (hg : ∀ acc x, (∃ b, g acc x = ok b) ↔ Good x) :
    (∃ bs, forEach g acc xs = ok bs) ↔ ∀ x ∈ xs, Good x := by
  induction xs generalizing acc with
  | nil => simp [forEach]
  | cons x xs ih =>
    simp only [forEach, bind_ok, List.forall_mem_cons, ← hg acc x]
    constructor
    · rintro ⟨bs, b, hb, hbs⟩
      exact ⟨⟨b, hb⟩, ih.mp ⟨bs, hbs⟩⟩
    · rintro ⟨⟨b, hb⟩, hxs⟩
      obtain ⟨bs, hbs⟩ := (@ih (acc ++ [b])).mpr hxs
      exact ⟨bs, b, hb, hbs⟩

/-- A loop whose elements do not depend on each other takes each to what it is read as. -/
theorem forEach_ok {f : α → Checked ε β} : forEach (fun _ x => f x) acc xs = ok bs ↔
    ∃ cs, bs = acc ++ cs ∧ List.Forall₂ (fun x c => f x = ok c) xs cs := by
  induction xs generalizing acc with
  | nil =>
    simp only [forEach, ok.injEq, List.forall₂_nil_left_iff]
    constructor
    · intro h
      exact ⟨[], by rw [List.append_nil, h], rfl⟩
    · intro ⟨cs, h, hnil⟩
      rw [h, hnil, List.append_nil]
  | cons x xs ih =>
    simp only [forEach, bind_ok, ih, List.forall₂_cons_left_iff]
    constructor
    · intro ⟨b, hb, cs, hbs, hcs⟩
      exact ⟨b :: cs, by rw [hbs, List.append_assoc]; rfl, b, cs, hb, hcs, rfl⟩
    · intro ⟨cs, hbs, b, rest, hb, hrest, hcons⟩
      exact ⟨b, hb, rest, by rw [hbs, hcons, List.append_assoc]; rfl, hrest⟩

section

variable {κ : Type} {key : β → κ} {keyOf : α → κ} {Good : α → Prop}

theorem forEach_keys (hkey : ∀ acc x b, g acc x = ok b → key b = keyOf x) (h : forEach g acc xs = ok bs) :
    bs.map key = acc.map key ++ xs.map keyOf := by
  induction xs generalizing acc with
  | nil =>
    cases h
    simp
  | cons x xs ih =>
    obtain ⟨b, hb, hbs⟩ := bind_ok.mp h
    rw [ih hbs, List.map_append, List.map_cons, List.map_nil, hkey acc x b hb, List.map_cons, List.append_assoc]
    rfl

/-- What a loop accepts whose elements must have distinct keys. -/
theorem forEach_accepts_distinct (hkey : ∀ acc x b, g acc x = ok b → key b = keyOf x)
    (hg : ∀ acc x, (∃ b, g acc x = ok b) ↔ Good x ∧ keyOf x ∉ acc.map key) (hacc : (acc.map key).Nodup) :
    (∃ bs, forEach g acc xs = ok bs) ↔ (∀ x ∈ xs, Good x) ∧ (acc.map key ++ xs.map keyOf).Nodup := by
  induction xs generalizing acc with
  | nil => simp [forEach, hacc]
  | cons x xs ih =>
    have hstep : ∀ b, g acc x = ok b → (acc ++ [b]).map key = acc.map key ++ [keyOf x] := by
      intro b hb
      rw [List.map_append, List.map_cons, List.map_nil, hkey acc x b hb]
    have hsplit : acc.map key ++ (x :: xs).map keyOf = acc.map key ++ [keyOf x] ++ xs.map keyOf := by simp
    simp only [forEach, bind_ok, List.forall_mem_cons]
    rw [hsplit]
    constructor
    · rintro ⟨bs, b, hb, hbs⟩
      obtain ⟨hgood, hnew⟩ := (hg acc x).mp ⟨b, hb⟩
      have hnodup : ((acc ++ [b]).map key).Nodup := by
        rw [hstep b hb]
        simp only [List.nodup_append, List.mem_singleton]
        refine ⟨hacc, by simp, fun y hy z hz he => hnew ?_⟩
        rw [← hz, ← he]
        exact hy
      obtain ⟨hxs, hd⟩ := (ih hnodup).mp ⟨bs, hbs⟩
      rw [hstep b hb] at hd
      exact ⟨⟨hgood, hxs⟩, hd⟩
    · rintro ⟨⟨hgood, hxs⟩, hd⟩
      have hnodup := (List.nodup_append.mp hd).1
      have hnew : keyOf x ∉ acc.map key :=
        fun hm => (List.nodup_append.mp hnodup).2.2 _ hm _ (List.mem_singleton_self _) rfl
      obtain ⟨b, hb⟩ := (hg acc x).mpr ⟨hgood, hnew⟩
      rw [← hstep b hb] at hnodup hd
      obtain ⟨bs, hbs⟩ := (ih hnodup).mpr ⟨hxs, hd⟩
      exact ⟨bs, b, hb, hbs⟩

end

end Checked

end RetailVision.Lib
