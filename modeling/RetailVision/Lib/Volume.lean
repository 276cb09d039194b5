/-
A directory on a disk that may lose power. What a name stands for is changed at
once, and what it stood for before may come back with a crash: the changes of a
directory reach the disk in any order, or not at all. What is written to a file
is safe once the file has been synced; before that, a crash leaves anything in
it.

`Settled` is a condition on all that a name may come to: each of the files has
been synced, and meets `P`. Whatever is done to other files and names keeps it,
and so does a crash; moving a synced file that meets `P` under the name does
(`Settled.rename`).
-/
import Mathlib.Logic.Function.Basic
import Mathlib.Data.List.Basic

set_option linter.all false

namespace RetailVision.Lib

/-- What a name stands for. -/
inductive DirEntry
  | file (inode : Nat)
  | link
  deriving DecidableEq

structure Inode (β : Type*) where
  content : List β
  /-- nothing has been written since it was synced -/
  synced : Bool

structure Volume (ν β : Type*) where
  inodes : Nat → Inode β
  /-- the first number not in use -/
  next : Nat
  names : ν → Option DirEntry
  /-- what a crash may bring back under a name -/
  past : ν → List (Option DirEntry)

namespace Volume

variable {ν β : Type*} [DecidableEq ν] (v : Volume ν β)

def read (n : ν) : Option (List β) :=
  match v.names n with
  | some (.file i) => some (v.inodes i).content
  | _ => none

/-- A name comes to stand for something else. -/
def setName (n : ν) (e : Option DirEntry) : Volume ν β :=
  { v with names := Function.update v.names n e, past := Function.update v.past n (v.names n :: v.past n) }

/-- An empty file under a name. -/
def create (n : ν) : Volume ν β :=
  { v with inodes := Function.update v.inodes v.next ⟨[], false⟩, next := v.next + 1 }.setName n (some (.file v.next))

def append (i : Nat) (data : List β) : Volume ν β :=
  { v with inodes := Function.update v.inodes i ⟨(v.inodes i).content ++ data, false⟩ }

def fsync (i : Nat) : Volume ν β :=
  { v with inodes := Function.update v.inodes i ⟨(v.inodes i).content, true⟩ }

def rename (m n : ν) : Volume ν β := (v.setName n (v.names m)).setName m none

def unlink (n : ν) : Volume ν β := v.setName n none

/-- The power is lost: `pick` says how far back each name falls, `torn` what is
left in a file that has not been synced. What is there then is on the disk. -/
def crash (pick : ν → Nat) (torn : Nat → List β) : Volume ν β where
  inodes i := ⟨if (v.inodes i).synced then (v.inodes i).content else torn i, true⟩
  next := v.next
  names n := (v.names n :: v.past n).getD (pick n) (v.names n)
  past _ := []

/-! ## What a name may come to -/

/-- What a name stands for, and what it may fall back to. -/
def entries (n : ν) : List (Option DirEntry) := v.names n :: v.past n

/-- A file that a crash does not change, and that meets `P`; or none, if `P`
holds of that. -/
def Holds (P : Option (List β) → Prop) : Option DirEntry → Prop
  | none => P none
  | some (.file i) => i < v.next ∧ (v.inodes i).synced = true ∧ P (some (v.inodes i).content)
  | some .link => False

def Settled (n : ν) (P : Option (List β) → Prop) : Prop := ∀ e ∈ v.entries n, v.Holds P e

variable {v} {n m : ν} {i : Nat} {e : Option DirEntry} {P : Option (List β) → Prop} {data : List β}

omit [DecidableEq ν] in
theorem Settled.read (h : v.Settled n P) : P (v.read n) := by
  have hhead : v.Holds P (v.names n) := h _ List.mem_cons_self
  unfold Volume.read
  split
  next i hname =>
    rw [hname] at hhead
    exact hhead.2.2
  next hname =>
    cases hentry : v.names n with
    | none =>
      rw [hentry] at hhead
      exact hhead
    | some entry =>
      cases entry with
      | file i => exact absurd hentry (hname i)
      | link =>
        rw [hentry] at hhead
        exact hhead.elim

omit [DecidableEq ν] in
/-- It does not depend on more than the files that the name may stand for. -/
theorem Settled.congr {w : Volume ν β} (h : v.Settled n P) (hentries : w.entries n = v.entries n) (hnext : v.next ≤ w.next)
    (hinodes : ∀ i, some (.file i) ∈ v.entries n → w.inodes i = v.inodes i) : w.Settled n P := by
  intro e he
  rw [hentries] at he
  have hold := h e he
  cases e with
  | none => exact hold
  | some entry =>
    cases entry with
    | file i =>
      obtain ⟨hlt, hsynced, hp⟩ := hold
      exact ⟨Nat.lt_of_lt_of_le hlt hnext, by rw [hinodes i he]; exact hsynced, by rw [hinodes i he]; exact hp⟩
    | link => exact hold.elim

theorem entries_setName_ne (hne : n ≠ m) : (v.setName m e).entries n = v.entries n := by
  simp [entries, setName, hne]

theorem entries_setName_self : (v.setName n e).entries n = e :: v.entries n := by
  simp [entries, setName]

omit [DecidableEq ν] in
/-- No name comes to stand for a file that is not there. -/
theorem Settled.lt (h : v.Settled n P) (hi : some (.file i) ∈ v.entries n) : i < v.next := (h _ hi).1

theorem Settled.create (h : v.Settled n P) (hne : n ≠ m) : (v.create m).Settled n P := by
  refine h.congr (entries_setName_ne hne) (Nat.le_succ _) fun i hi => ?_
  exact Function.update_of_ne (Nat.ne_of_lt (h.lt hi)) _ _

omit [DecidableEq ν] in
theorem Settled.append (h : v.Settled n P) (hi : some (.file i) ∉ v.entries n) : (v.append i data).Settled n P := by
  refine h.congr rfl (Nat.le_refl _) fun k hk => ?_
  exact Function.update_of_ne (fun hki : k = i => hi (hki ▸ hk)) _ _

omit [DecidableEq ν] in
theorem Settled.fsync (h : v.Settled n P) (hi : some (.file i) ∉ v.entries n) : (v.fsync i).Settled n P := by
  refine h.congr rfl (Nat.le_refl _) fun k hk => ?_
  exact Function.update_of_ne (fun hki : k = i => hi (hki ▸ hk)) _ _

theorem Settled.unlink (h : v.Settled n P) (hne : n ≠ m) : (v.unlink m).Settled n P :=
  h.congr (entries_setName_ne hne) (Nat.le_refl _) fun _ _ => rfl

/-- **A synced file is moved under the name.** -/
theorem Settled.rename (h : v.Settled n P) (hne : n ≠ m) (he : v.Holds P (v.names m)) : (v.rename m n).Settled n P := by
  intro e hentry
  rw [Volume.rename, entries_setName_ne hne, entries_setName_self] at hentry
  obtain rfl | hentry := List.mem_cons.mp hentry
  · exact he
  · exact h e hentry

omit [DecidableEq ν] in
/-- **A crash brings back what the name has stood for**, as it was synced. -/
theorem Settled.crash (h : v.Settled n P) {pick : ν → Nat} {torn : Nat → List β} : (v.crash pick torn).Settled n P := by
  have hpicked : (v.names n :: v.past n).getD (pick n) (v.names n) ∈ v.entries n := by
    rw [List.getD_eq_getElem?_getD]
    cases hget : (v.names n :: v.past n)[pick n]? with
    | none => exact List.mem_cons_self
    | some e => exact List.mem_of_getElem? hget
  intro e hentry
  have hentry : e ∈ [(v.names n :: v.past n).getD (pick n) (v.names n)] := hentry
  rw [List.mem_singleton] at hentry
  rw [← hentry] at hpicked
  have hold := h e hpicked
  cases e with
  | none => exact hold
  | some entry =>
    cases entry with
    | file i =>
      obtain ⟨hlt, hsynced, hp⟩ := hold
      refine ⟨hlt, rfl, ?_⟩
      show P (some (if (v.inodes i).synced = true then (v.inodes i).content else torn i))
      rwa [if_pos hsynced]
    | link => exact hold.elim

omit [DecidableEq ν] in
theorem Settled.imp {Q : Option (List β) → Prop} (h : v.Settled n P) (hpq : ∀ c, P c → Q c) : v.Settled n Q := by
  intro e he
  have hold := h e he
  cases e with
  | none => exact hpq _ hold
  | some entry =>
    cases entry with
    | file i => exact ⟨hold.1, hold.2.1, hpq _ hold.2.2⟩
    | link => exact hold.elim

end Volume

end RetailVision.Lib
