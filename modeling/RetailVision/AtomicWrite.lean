/-
`write_json_atomic` of `vision_base/atomicio.py`: a temporary file of its own,
synced and moved over the target. Whatever fails, and whenever the power is
lost, the target holds the whole of something that has been written, or what it
held at first; and a call that raises leaves it as it is (`write_atomic`).

A step is a system call, which may fail where Python would raise, or a crash. The
text that `json.dump` writes reaches the file in pieces. Left out: the mode of
the file, and `os.makedirs`.
-/
import RetailVision.Lib.Run
import RetailVision.Lib.Volume

set_option linter.all false

namespace RetailVision.AtomicWrite

open Lib

variable {ν β : Type} [DecidableEq ν]

/-- Where a call is. -/
inductive Phase (ν β : Type)
  | idle
  /-- `json.dump`, `flush`: `rest` of the text is still in memory -/
  | writing (inode : Nat) (tmp : ν) (text rest : List β)
  /-- synced, before `os.chmod` -/
  | synced (tmp : ν) (text : List β)
  /-- before `os.replace` -/
  | ready (tmp : ν) (text : List β)
  /-- something has been raised, before `os.unlink` -/
  | failing (tmp : ν)

structure State (ν β : Type) where
  volume : Volume ν β
  phase : Phase ν β

inductive Act (ν β : Type)
  /-- `tempfile.mkstemp`, under a name that nothing has, for a text to be written -/
  | mkstemp (tmp : ν) (text : List β)
  | write (n : Nat)
  | fsync
  | chmod
  | replace
  /-- one of these calls raises -/
  | fail
  | unlink
  | unlinkFails
  | crash (pick : ν → Nat) (torn : Nat → List β)

/-- What has been written, and what the target is to hold. -/
structure History (β : Type) where
  /-- the texts of the calls that have returned, the last one first -/
  saved : List (List β)
  /-- what the last of them has left, or the last crash -/
  current : Option (List β)

section

variable (target : ν) (directoryIsLink : Bool)

/-- A target or a directory that is a symbolic link is refused. -/
def refused (v : Volume ν β) : Bool := v.names target == some .link || directoryIsLink

def step (s : State ν β) : Act ν β → Option (State ν β)
  | .mkstemp tmp text => match s.phase with
    | .idle =>
      if refused target directoryIsLink s.volume then none
      else if tmp ≠ target ∧ s.volume.names tmp = none then
        some { volume := s.volume.create tmp, phase := .writing s.volume.next tmp text text }
      else none
    | _ => none
  | .write n => match s.phase with
    | .writing i tmp text rest =>
      if 0 < n ∧ n ≤ rest.length then
        some { volume := s.volume.append i (rest.take n), phase := .writing i tmp text (rest.drop n) }
      else none
    | _ => none
  | .fsync => match s.phase with
    | .writing i tmp text [] => some { volume := s.volume.fsync i, phase := .synced tmp text }
    | _ => none
  | .chmod => match s.phase with
    | .synced tmp text => some { s with phase := .ready tmp text }
    | _ => none
  | .replace => match s.phase with
    | .ready tmp _ => some { volume := s.volume.rename tmp target, phase := .idle }
    | _ => none
  | .fail => match s.phase with
    | .writing _ tmp _ _ | .synced tmp _ | .ready tmp _ => some { s with phase := .failing tmp }
    | _ => none
  | .unlink => match s.phase with
    | .failing tmp => some { volume := s.volume.unlink tmp, phase := .idle }
    | _ => none
  | .unlinkFails => match s.phase with
    | .failing _ => some { s with phase := .idle }
    | _ => none
  | .crash pick torn => some { volume := s.volume.crash pick torn, phase := .idle }

def record (s : State ν β) (a : Act ν β) (h : History β) : History β :=
  match a, s.phase with
  | .replace, .ready _ text => { saved := text :: h.saved, current := some text }
  | .crash pick torn, _ => { h with current := (s.volume.crash pick torn).read target }
  | _, _ => h

end

def Act.isCrash : Act ν β → Bool
  | .crash _ _ => true
  | _ => false

variable {target tmp n : ν} {directoryIsLink : Bool} {first : Option (List β)} {s s' : State ν β} {h : History β} {v : Volume ν β}
  {a : Act ν β} {as : List (Act ν β)} {P : Option (List β) → Prop}

/-! ## Names that a call has nothing to do with -/

theorem read_setName_ne {e : Option DirEntry} (hne : n ≠ tmp) : (v.setName tmp e).read n = v.read n := by
  unfold Volume.read Volume.setName
  dsimp only
  rw [Function.update_of_ne hne]

omit [DecidableEq ν] in
/-- A file that a name does not stand for. -/
theorem read_update {i : Nat} {f : Inode β} (hi : some (.file i) ∉ v.entries n) :
    ({ v with inodes := Function.update v.inodes i f } : Volume ν β).read n = v.read n := by
  unfold Volume.read
  dsimp only
  cases hname : v.names n with
  | none => rfl
  | some entry =>
    cases entry with
    | file k =>
      have hki : k ≠ i := fun hki => hi (hki ▸ hname ▸ List.mem_cons_self)
      dsimp only
      rw [Function.update_of_ne hki]
    | link => rfl

/-- Neither the temporary file nor its name is what the name `n` may come to. -/
def Spares (n : ν) (s : State ν β) : Prop :=
  match s.phase with
  | .idle => True
  | .writing i tmp _ _ => n ≠ tmp ∧ some (.file i) ∉ s.volume.entries n
  | .synced tmp _ | .ready tmp _ | .failing tmp => n ≠ tmp

/-- What a step does to a name that it does not move a file to. -/
structure Spared (n : ν) (P : Option (List β) → Prop) (s s' : State ν β) (crash : Bool) : Prop where
  spares : Spares n s'
  settled : s'.volume.Settled n P
  read : crash = false → s'.volume.read n = s.volume.read n

theorem spared_step (hsp : Spares n s) (hset : s.volume.Settled n P) (hs : step target directoryIsLink s a = some s')
    (htmp : ∀ tmp text, a = .mkstemp tmp text → n ≠ tmp) (hreplace : a = .replace → n ≠ target) :
    Spared n P s s' a.isCrash := by
  unfold Spares at hsp
  cases a with
  | mkstemp tmp text =>
    rw [step] at hs
    split at hs
    · split at hs
      · cases hs
      · obtain ⟨-, hs⟩ := Option.ite_none_right_eq_some.mp hs
        cases hs
        have hne := htmp tmp text rfl
        have hfresh : some (.file s.volume.next) ∉ s.volume.entries n := fun hmem => Nat.lt_irrefl _ (hset.lt hmem)
        refine ⟨⟨hne, ?_⟩, hset.create hne, fun _ => (read_setName_ne hne).trans (read_update hfresh)⟩
        rwa [Volume.create, Volume.entries_setName_ne hne]
    · cases hs
  | write k =>
    rw [step] at hs
    split at hs
    next i tmp text rest hphase =>
      obtain ⟨-, hs⟩ := Option.ite_none_right_eq_some.mp hs
      cases hs
      rw [hphase] at hsp
      exact ⟨hsp, hset.append hsp.2, fun _ => read_update hsp.2⟩
    · cases hs
  | fsync =>
    rw [step] at hs
    split at hs
    next i tmp text hphase =>
      cases hs
      rw [hphase] at hsp
      exact ⟨hsp.1, hset.fsync hsp.2, fun _ => read_update hsp.2⟩
    · cases hs
  | chmod =>
    rw [step] at hs
    split at hs
    next tmp text hphase =>
      cases hs
      rw [hphase] at hsp
      exact ⟨hsp, hset, fun _ => rfl⟩
    · cases hs
  | replace =>
    rw [step] at hs
    split at hs
    next tmp text hphase =>
      cases hs
      rw [hphase] at hsp
      have hne := hreplace rfl
      have hsame : (s.volume.rename tmp target).entries n = s.volume.entries n := by
        rw [Volume.rename, Volume.entries_setName_ne hsp, Volume.entries_setName_ne hne]
      exact ⟨trivial, hset.congr hsame (Nat.le_refl _) fun _ _ => rfl,
        fun _ => (read_setName_ne hsp).trans (read_setName_ne hne)⟩
    · cases hs
  | fail =>
    rw [step] at hs
    split at hs
    next hphase =>
      cases hs
      rw [hphase] at hsp
      exact ⟨hsp.1, hset, fun _ => rfl⟩
    next hphase =>
      cases hs
      rw [hphase] at hsp
      exact ⟨hsp, hset, fun _ => rfl⟩
    next hphase =>
      cases hs
      rw [hphase] at hsp
      exact ⟨hsp, hset, fun _ => rfl⟩
    · cases hs
  | unlink =>
    rw [step] at hs
    split at hs
    next tmp hphase =>
      cases hs
      rw [hphase] at hsp
      exact ⟨trivial, hset.unlink hsp, fun _ => read_setName_ne hsp⟩
    · cases hs
  | unlinkFails =>
    rw [step] at hs
    split at hs
    · cases hs
      exact ⟨trivial, hset, fun _ => rfl⟩
    · cases hs
  | crash pick torn =>
    cases hs
    exact ⟨trivial, hset.crash, fun hcrash => by cases hcrash⟩

/-! ## The temporary file -/

/-- The temporary file holds what has been written of the text, and all of it
once it is synced. -/
def Filled (s : State ν β) : Prop :=
  match s.phase with
  | .idle | .failing _ => True
  | .writing i tmp text rest =>
    s.volume.names tmp = some (.file i) ∧ i < s.volume.next ∧ (s.volume.inodes i).content ++ rest = text
  | .synced tmp text | .ready tmp text => ∃ i, s.volume.names tmp = some (.file i) ∧ i < s.volume.next ∧
      (s.volume.inodes i).synced = true ∧ (s.volume.inodes i).content = text

theorem filled_step (hf : Filled s) (hs : step target directoryIsLink s a = some s') : Filled s' := by
  unfold Filled at hf
  cases a with
  | mkstemp tmp text =>
    rw [step] at hs
    split at hs
    · split at hs
      · cases hs
      · obtain ⟨-, hs⟩ := Option.ite_none_right_eq_some.mp hs
        cases hs
        refine ⟨Function.update_self .., Nat.lt_succ_self _, ?_⟩
        show (Function.update s.volume.inodes s.volume.next ⟨[], false⟩ s.volume.next).content ++ text = text
        rw [Function.update_self, List.nil_append]
    · cases hs
  | write k =>
    rw [step] at hs
    split at hs
    next i tmp text rest hphase =>
      obtain ⟨-, hs⟩ := Option.ite_none_right_eq_some.mp hs
      cases hs
      rw [hphase] at hf
      obtain ⟨hname, hlt, hcontent⟩ := hf
      refine ⟨hname, hlt, ?_⟩
      show (Function.update s.volume.inodes i ⟨(s.volume.inodes i).content ++ rest.take k, false⟩ i).content ++ rest.drop k = text
      rw [Function.update_self, List.append_assoc, List.take_append_drop, hcontent]
    · cases hs
  | fsync =>
    rw [step] at hs
    split at hs
    next i tmp text hphase =>
      cases hs
      rw [hphase] at hf
      obtain ⟨hname, hlt, hcontent⟩ := hf
      rw [List.append_nil] at hcontent
      have hself : (s.volume.fsync i).inodes i = ⟨(s.volume.inodes i).content, true⟩ := Function.update_self ..
      exact ⟨i, hname, hlt, by rw [hself], by rw [hself, hcontent]⟩
    · cases hs
  | chmod =>
    rw [step] at hs
    split at hs
    next tmp text hphase =>
      cases hs
      rw [hphase] at hf
      exact hf
    · cases hs
  | replace | fail | unlink | unlinkFails =>
    rw [step] at hs
    split at hs
    all_goals cases hs
    all_goals exact trivial
  | crash pick torn =>
    cases hs
    exact trivial

/-! ## The target -/

/-- What the target may hold: what it held at first, or a text that has been written. -/
def Whole (first : Option (List β)) (h : History β) (c : Option (List β)) : Prop :=
  c = first ∨ ∃ text ∈ h.saved, c = some text

structure Inv (target : ν) (first : Option (List β)) (s : State ν β) (h : History β) : Prop where
  settled : s.volume.Settled target (Whole first h)
  current : s.volume.read target = h.current
  spares : Spares target s
  filled : Filled s

/-- **The file that is moved is synced**, so that a crash leaves the whole of
the text or what was there before. -/
theorem Inv.replace (hi : Inv target first s h) (hs : step target directoryIsLink s .replace = some s') :
    Inv target first s' (record target s .replace h) := by
  have hfilled' := filled_step hi.filled hs
  rw [step] at hs
  split at hs
  next tmp text hphase =>
    cases hs
    have hspares := hi.spares
    have hfilled := hi.filled
    rw [Spares, hphase] at hspares
    rw [Filled, hphase] at hfilled
    obtain ⟨i, hname, hlt, hsynced, hcontent⟩ := hfilled
    have hrecord : record target s .replace h = { saved := text :: h.saved, current := some text } := by
      simp only [record, hphase]
    rw [hrecord]
    have hmore : s.volume.Settled target (Whole first { saved := text :: h.saved, current := some text }) :=
      hi.settled.imp fun c hc => hc.imp id fun ⟨t, ht, hct⟩ => ⟨t, List.mem_cons_of_mem _ ht, hct⟩
    refine ⟨hmore.rename hspares ?_, ?_, trivial, hfilled'⟩
    · rw [hname]
      exact ⟨hlt, hsynced, .inr ⟨text, List.mem_cons_self, by rw [hcontent]⟩⟩
    · show (s.volume.rename tmp target).read target = some text
      rw [Volume.rename, read_setName_ne hspares, Volume.read, Volume.setName, hname]
      dsimp only
      rw [Function.update_self]
      dsimp only
      rw [hcontent]
  · cases hs

theorem mkstemp_ne {text : List β} (hs : step target directoryIsLink s (.mkstemp tmp text) = some s') : target ≠ tmp := by
  rw [step] at hs
  split at hs
  · split at hs
    · cases hs
    · exact (Option.ite_none_right_eq_some.mp hs).1.1.symm
  · cases hs

theorem Inv.step (hi : Inv target first s h) (hs : step target directoryIsLink s a = some s') :
    Inv target first s' (record target s a h) := by
  by_cases hreplace : a = .replace
  · cases hreplace
    exact hi.replace hs
  · have hsp := spared_step hi.spares hi.settled hs (fun tmp text ha => mkstemp_ne (ha ▸ hs)) fun ha => absurd ha hreplace
    have hfilled := filled_step hi.filled hs
    cases a with
    | crash pick torn =>
      cases hs
      exact ⟨hsp.settled, rfl, hsp.spares, hfilled⟩
    | replace => exact absurd rfl hreplace
    | mkstemp | write | fsync | chmod | fail | unlink | unlinkFails =>
      exact ⟨hsp.settled, (hsp.read rfl).trans hi.current, hsp.spares, hfilled⟩

/-! ## Runs -/

/-- The texts of the calls, those that have returned and the one that is going on. -/
def Texts (T : List β → Prop) (s : State ν β) (h : History β) : Prop :=
  (∀ text ∈ h.saved, T text) ∧ match s.phase with
    | .writing _ _ text _ | .synced _ text | .ready _ text => T text
    | .idle | .failing _ => True

theorem texts_step {T : List β → Prop} (hT : ∀ tmp text, a = .mkstemp tmp text → T text) (ht : Texts T s h)
    (hs : step target directoryIsLink s a = some s') : Texts T s' (record target s a h) := by
  obtain ⟨hsaved, hphase⟩ := ht
  cases a with
  | mkstemp tmp text =>
    rw [step] at hs
    split at hs
    · split at hs
      · cases hs
      · obtain ⟨-, hs⟩ := Option.ite_none_right_eq_some.mp hs
        cases hs
        exact ⟨hsaved, hT tmp text rfl⟩
    · cases hs
  | write k =>
    rw [step] at hs
    split at hs
    next hwriting =>
      obtain ⟨-, hs⟩ := Option.ite_none_right_eq_some.mp hs
      cases hs
      rw [hwriting] at hphase
      exact ⟨hsaved, hphase⟩
    · cases hs
  | fsync | chmod =>
    rw [step] at hs
    split at hs
    next hat =>
      cases hs
      rw [hat] at hphase
      exact ⟨hsaved, hphase⟩
    · cases hs
  | replace =>
    rw [step] at hs
    split at hs
    next hready =>
      cases hs
      rw [hready] at hphase
      refine ⟨?_, trivial⟩
      simp only [record, hready]
      exact List.forall_mem_cons.mpr ⟨hphase, hsaved⟩
    · cases hs
  | fail | unlink | unlinkFails =>
    rw [step] at hs
    split at hs
    all_goals cases hs
    all_goals exact ⟨hsaved, trivial⟩
  | crash pick torn =>
    cases hs
    exact ⟨hsaved, trivial⟩

/-- Without a crash, the target is what the last call that has returned has left. -/
theorem last_step (hcrash : a.isCrash = false) (hlast : h.current = h.saved.head?.or first)
    (hs : step target directoryIsLink s a = some s') :
    (record target s a h).current = (record target s a h).saved.head?.or first := by
  cases a with
  | replace =>
    rw [step] at hs
    split at hs
    next hready =>
      simp only [record, hready]
      rfl
    · cases hs
  | crash pick torn => cases hcrash
  | mkstemp | write | fsync | chmod | fail | unlink | unlinkFails => exact hlast

/-- What calls have come to, one after the other, on a volume that was `v` at first. -/
structure Written (target : ν) (v : Volume ν β) (as : List (Act ν β)) (s : State ν β) (h : History β) : Prop where
  current : s.volume.read target = h.current
  /-- the whole of a text that was to be written, or what the target was at first -/
  whole : Whole (v.read target) h h.current
  texts : ∀ text ∈ h.saved, ∃ tmp, .mkstemp tmp text ∈ as
  /-- as long as the power is there, the text of the last call that has returned: one
  that raises leaves it as it is -/
  last : (∀ a ∈ as, a.isCrash = false) → h.current = h.saved.head?.or (v.read target)
  /-- no other file is changed, even by a crash, but for the temporary ones -/
  others : ∀ n, n ≠ target → v.Settled n (· = v.read n) → (∀ tmp text, .mkstemp tmp text ∈ as → n ≠ tmp) →
    s.volume.read n = v.read n

/-- **The target is never torn**: whatever fails and whenever the power is lost,
over any number of calls, it holds the whole of one of the texts, or what it
held at first. -/
theorem write_atomic (hsettled : v.Settled target (· = v.read target))
    (hr : run (traced (step target directoryIsLink) (record target)) (⟨v, .idle⟩, ⟨[], v.read target⟩) as = some (s, h)) :
    Written target v as s h := by
  have hstart : Inv target (v.read target) ⟨v, .idle⟩ ⟨[], v.read target⟩ :=
    ⟨hsettled.imp fun c hc => .inl hc, rfl, trivial, trivial⟩
  have hinv : Inv target (v.read target) s h := by
    refine run_traced_invariant (fun s h a s' _ hi hs => ?_) meets_true hstart hr
    exact hi.step hs
  refine ⟨hinv.current, hinv.current ▸ hinv.settled.read, ?_, fun hcrash => ?_, fun n hn hsn htmp => ?_⟩
  · have htexts : Texts (fun text => ∃ tmp, .mkstemp tmp text ∈ as) s h := by
      refine run_traced_invariant (I := Texts fun text => ∃ tmp, .mkstemp tmp text ∈ as) (C := fun _ a => a ∈ as)
        (fun s h a s' ha hi hs => ?_) (meets_of_forall fun a ha => ha) ⟨by simp, trivial⟩ hr
      exact texts_step (fun tmp text h => ⟨tmp, h ▸ ha⟩) hi hs
    exact htexts.1
  · refine run_traced_invariant (I := fun _ h => h.current = h.saved.head?.or (v.read target))
      (C := fun _ a => a.isCrash = false) (fun s h a s' ha hi hs => ?_) (meets_of_forall hcrash) ?_ hr
    · exact last_step ha hi hs
    · rfl
  · have hfirst : Spares n ⟨v, .idle⟩ ∧ v.Settled n (· = v.read n) := ⟨trivial, hsn⟩
    have hspared : Spares n s ∧ s.volume.Settled n (· = v.read n) := by
      refine run_invariant (I := fun s => Spares n s ∧ s.volume.Settled n (· = v.read n)) (C := fun _ a => a ∈ as)
        (fun s a s' ha hi hs => ?_) (meets_of_forall fun a ha => ha) hfirst (run_of_traced hr)
      have hsp := spared_step hi.1 hi.2 hs (fun tmp text h => htmp tmp text (h ▸ ha)) fun _ => hn
      exact ⟨hsp.spares, hsp.settled⟩
    exact hspared.2.read

/-- A directory of two files. -/
def twoFiles : Volume String Nat where
  inodes i := ⟨[i], true⟩
  next := 2
  names n := if n = "streams.json" then some (.file 0) else if n = "hello" then some (.file 1) else none
  past _ := []

/-- A first call raises while it writes; a second returns, and the power is lost
in a third, which falls back to what was there before the second. -/
def writes : List (Act String Nat) :=
  [.mkstemp "streams.json.a.tmp" [7, 8], .write 1, .fail, .unlink,
    .mkstemp "streams.json.b.tmp" [5, 6], .write 2, .fsync, .chmod, .replace,
    .mkstemp "streams.json.c.tmp" [4], .crash (fun n => if n = "streams.json" then 1 else 0) (fun _ => [9])]

theorem write_atomic_writes : ∃ s h, run (traced (step "streams.json" false) (record "streams.json"))
    (⟨twoFiles, .idle⟩, ⟨[], some [0]⟩) writes = some (s, h) ∧ h.saved = [[5, 6]] ∧
    Written "streams.json" twoFiles writes s h :=
  ⟨_, _, rfl, rfl, @write_atomic String Nat _ "streams.json" false _ _ twoFiles writes (by
    intro e he
    cases List.mem_singleton.mp he
    exact ⟨by decide, rfl, rfl⟩) rfl⟩

end RetailVision.AtomicWrite
