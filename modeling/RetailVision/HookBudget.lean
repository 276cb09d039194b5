/-
How a shard meters its hooks (`vision_base/shard.py`: `_call_hook`,
`_roll_hook_window_locked`, `_hook_budget_core`, `hook_budget_status`). The hook
thread adds the CPU time of each call to a window, the heartbeat asks for the status;
each of them reads the clock, waits for `_cv`, and opens a new window if by the time
it has read the current one is ten seconds old. Times are exact, and `round` is a
parameter.
-/
import RetailVision.Lib.Ordered
import Mathlib.Algebra.Order.BigOperators.Group.List
import Mathlib.Algebra.Order.Field.Basic
import Mathlib.Data.List.Induction
import Mathlib.Data.Rat.Floor
import Mathlib.Tactic.Linarith

set_option linter.all false

namespace RetailVision.HookBudget

open scoped RetailVision.Lib.Ordered

variable {K : Type}

inductive Method
  | onFrame
  | onEvent
  | other
  deriving DecidableEq

structure Meter (K : Type) where
  winStart : K
  winCpu : Method → K
  slow : Nat
  exceeded : Bool
  warnMonotonic : K

/-- A block under `_cv`, with the time that was read for it and the time at which it
was entered. `option` is what `float` makes of `hook_budget_core`, or of its default,
unless it raises. -/
inductive Act (K : Type)
  | call (method : Method) (dur now entered : K)
  | status (option : Option K) (now entered : K)

def Act.now : Act K → K
  | .call _ _ now _ => now
  | .status _ now _ => now

def Act.entered : Act K → K
  | .call _ _ _ entered => entered
  | .status _ _ entered => entered

structure Status (K : Type) where
  core : K
  limit : K
  exceeded : Bool
  byMethod : Method → K
  slow : Nat
  advice : String

def budgetAdvice : String :=
  "per-frame hook exceeds budget; move it to a C ABI analyzer plugin (docs/extending.md)"

section

variable [Field K] [LinearOrder K]

/-- `HOOK_BUDGET_WINDOW_S` -/
def hookBudgetWindowS (K : Type) [Field K] : K := 10.0

def Meter.init (start : K) : Meter K := ⟨start, fun _ => 0, 0, false, 0⟩

def Meter.rollWindow (s : Meter K) (now : K) : Meter K :=
  if now - s.winStart < hookBudgetWindowS K then s else { s with winStart := now, winCpu := fun _ => 0 }

def Meter.callHook (s : Meter K) (method : Method) (dur now : K) : Meter K :=
  let s := { s with slow := if dur > 1 then s.slow + 1 else s.slow }
  let s := s.rollWindow now
  { s with winCpu := fun m => if m = method then s.winCpu m + dur else s.winCpu m }

def budgetCore (option : Option K) : K :=
  let value := option.getD 0.10
  if value > 0 then value else 0.10

/-- The sum of the window, over its length. -/
def Meter.core (s : Meter K) : K :=
  (s.winCpu .onFrame + s.winCpu .onEvent + s.winCpu .other) / hookBudgetWindowS K

/-- A warning is due. -/
def Meter.Warns (s : Meter K) (limit now : K) : Prop := s.core > limit ∧ s.exceeded = false ∧ now - s.warnMonotonic ≥ 60

instance (s : Meter K) (limit now : K) : Decidable (s.Warns limit now) :=
  inferInstanceAs (Decidable (s.core > limit ∧ s.exceeded = false ∧ now - s.warnMonotonic ≥ 60))

def Meter.budgetStatus (round : K → K) (s : Meter K) (option : Option K) (now : K) : Meter K × Status K :=
  let budget := budgetCore option
  let s := s.rollWindow now
  let exceeded := decide (s.core > budget)
  let s' := if s.Warns budget now then { s with warnMonotonic := now } else s
  ({ s' with exceeded := exceeded },
    { core := round s.core
      limit := budget
      exceeded := exceeded
      byMethod := fun m => round (s.winCpu m)
      slow := s.slow
      advice := if exceeded then budgetAdvice else "" })

def Meter.step (round : K → K) (s : Meter K) : Act K → Meter K
  | .call method dur now _ => s.callHook method dur now
  | .status option now _ => (s.budgetStatus round option now).1

def run (round : K → K) (start : K) (acts : List (Act K)) : Meter K := acts.foldl (Meter.step round) (Meter.init start)

/-- The times of the warnings. -/
def warnings (round : K → K) (s : Meter K) : List (Act K) → List K
  | [] => []
  | .call method dur now _ :: acts => warnings round (s.callHook method dur now) acts
  | .status option now _ :: acts =>
    (if (s.rollWindow now).Warns (budgetCore option) now then [now] else []) ++ warnings round (s.budgetStatus round option now).1 acts

/-- The CPU time that a block adds to a method. -/
def Act.cpu (m : Method) : Act K → K
  | .call method dur _ _ => if m = method then dur else 0
  | .status _ _ _ => 0

def cpu (m : Method) (acts : List (Act K)) : K := (acts.map (Act.cpu m)).sum

def total (acts : List (Act K)) : K := cpu .onFrame acts + cpu .onEvent acts + cpu .other acts

/-- The clock is monotonic: the blocks are entered in their order, and not before the
time is read for them. -/
structure InOrder (start : K) (acts : List (Act K)) : Prop where
  entered : (start :: acts.map Act.entered).Pairwise (· ≤ ·)
  read : ∀ a ∈ acts, a.now ≤ a.entered

/-- The window that was opened at `t` holds what was done since, and nothing else. -/
structure Holds (t : K) (acts : List (Act K)) (s : Meter K) : Prop where
  opened : s.winStart ≤ t
  holds : ∃ past since, acts = past ++ since ∧ (∀ a ∈ past, a.entered ≤ t) ∧ (∀ a ∈ since, t ≤ a.entered) ∧
    ∀ m, s.winCpu m = cpu m since

end

/-! ## The window -/

section

variable [Field K] [LinearOrder K] {round : K → K} {start now entered t : K} {acts : List (Act K)} {s : Meter K} {a : Act K}

@[simp] theorem rollWindow_winStart :
    (s.rollWindow now).winStart = if now - s.winStart < hookBudgetWindowS K then s.winStart else now := by
  unfold Meter.rollWindow
  split_ifs <;> rfl

@[simp] theorem rollWindow_winCpu :
    (s.rollWindow now).winCpu = if now - s.winStart < hookBudgetWindowS K then s.winCpu else fun _ => 0 := by
  unfold Meter.rollWindow
  split_ifs <;> rfl

@[simp] theorem rollWindow_warnMonotonic : (s.rollWindow now).warnMonotonic = s.warnMonotonic := by
  unfold Meter.rollWindow
  split_ifs <;> rfl

omit [LinearOrder K] in
theorem hookBudgetWindowS_eq [CharZero K] : hookBudgetWindowS K = 10 := by norm_num [hookBudgetWindowS]

omit [LinearOrder K] in
theorem cpu_append (m : Method) (past since : List (Act K)) : cpu m (past ++ since) = cpu m past + cpu m since := by
  simp [cpu]

omit [LinearOrder K] in
theorem cpu_concat (m : Method) (acts : List (Act K)) (a : Act K) : cpu m (acts ++ [a]) = cpu m acts + a.cpu m := by simp [cpu]

omit [Field K] in
theorem inOrder_concat (h : InOrder start (acts ++ [a])) :
    InOrder start acts ∧ start ≤ a.entered ∧ (∀ b ∈ acts, b.entered ≤ a.entered) ∧ a.now ≤ a.entered := by
  obtain ⟨hentered, hread⟩ := h
  rw [List.map_append, ← List.cons_append, List.pairwise_append] at hentered
  obtain ⟨hacts, -, hle⟩ := hentered
  refine ⟨⟨hacts, fun b hb => hread b (List.mem_append_left _ hb)⟩, ?_, fun b hb => ?_, hread a (by simp)⟩
  · exact hle start List.mem_cons_self a.entered (by simp)
  · exact hle b.entered (List.mem_cons_of_mem _ (List.mem_map_of_mem hb)) a.entered (by simp)

theorem Holds.init (start : K) : Holds start [] (Meter.init start) where
  opened := le_refl start
  holds := ⟨[], [], rfl, by simp, by simp, fun m => rfl⟩

/-- A window that is old is opened anew, so none is ten seconds old afterwards. -/
theorem Holds.roll [IsStrictOrderedRing K] (h : Holds t acts s) (ht : t ≤ entered) (hacts : ∀ b ∈ acts, b.entered ≤ entered)
    (hread : now ≤ entered) : ∃ t ≤ entered, Holds t acts (s.rollWindow now) ∧ now - (s.rollWindow now).winStart < 10 := by
  rw [← hookBudgetWindowS_eq]
  by_cases hyoung : now - s.winStart < hookBudgetWindowS K
  · rw [Meter.rollWindow, if_pos hyoung]
    exact ⟨t, ht, h, hyoung⟩
  · rw [Meter.rollWindow, if_neg hyoung]
    refine ⟨entered, le_refl entered, ⟨hread, acts, [], (List.append_nil acts).symm, hacts, by simp, fun m => rfl⟩, ?_⟩
    rw [sub_self, hookBudgetWindowS_eq]
    norm_num

/-- A block counts in the window that is open then. -/
theorem Holds.concat (h : Holds t acts s) (ht : t ≤ a.entered) {s' : Meter K} (hwin : s'.winStart = s.winStart)
    (hcpu : ∀ m, s'.winCpu m = s.winCpu m + a.cpu m) : Holds t (acts ++ [a]) s' := by
  obtain ⟨past, since, hsplit, hpast, hsince, hsum⟩ := h.holds
  refine ⟨hwin ▸ h.opened, past, since ++ [a], by rw [hsplit, List.append_assoc], hpast, fun b hb => ?_, fun m => ?_⟩
  · rcases List.mem_append.mp hb with hb | hb
    · exact hsince b hb
    · rwa [List.mem_singleton.mp hb]
  · rw [hcpu, hsum, cpu_concat]

theorem step_winStart : (s.step round a).winStart = (s.rollWindow a.now).winStart := by
  cases a with
  | call method dur now entered => simp [Meter.step, Meter.callHook, Act.now]
  | status option now entered =>
    simp only [Meter.step, Meter.budgetStatus, Act.now]
    split_ifs <;> rfl

theorem step_winCpu (m : Method) : (s.step round a).winCpu m = (s.rollWindow a.now).winCpu m + a.cpu m := by
  cases a with
  | call method dur now entered =>
    simp only [Meter.step, Meter.callHook, Act.cpu, Act.now, rollWindow_winCpu]
    split_ifs <;> simp
  | status option now entered =>
    simp only [Meter.step, Meter.budgetStatus, Act.cpu, Act.now, add_zero]
    split_ifs <;> rfl

theorem run_concat : run round start (acts ++ [a]) = (run round start acts).step round a := by simp [run]

theorem run_holds [IsStrictOrderedRing K] (round : K → K) (h : InOrder start acts) :
    ∃ t, Holds t acts (run round start acts) ∧ ∀ e, start ≤ e → (∀ b ∈ acts, b.entered ≤ e) → t ≤ e := by
  induction acts using List.reverseRecOn with
  | nil => exact ⟨start, Holds.init start, fun e he _ => he⟩
  | append_singleton acts a ih =>
    obtain ⟨hacts, hstart, hle, hread⟩ := inOrder_concat h
    obtain ⟨t, hholds, hbefore⟩ := ih hacts
    obtain ⟨t', ht', hroll, -⟩ := hholds.roll (hbefore a.entered hstart hle) hle hread
    rw [run_concat]
    exact ⟨t', hroll.concat ht' step_winStart step_winCpu, fun e _ he => ht'.trans (he a (by simp))⟩

end

/-! ## The warnings -/

section

variable [Field K] [LinearOrder K] [IsStrictOrderedRing K] {round : K → K} {acts : List (Act K)} {s : Meter K}

theorem warnings_apart :
    (∀ w ∈ warnings round s acts, 60 ≤ w - s.warnMonotonic) ∧ (warnings round s acts).Pairwise fun v w => 60 ≤ w - v := by
  induction acts generalizing s with
  | nil => simp [warnings]
  | cons a acts ih =>
    cases a with
    | call method dur now entered =>
      have hkeep : (s.callHook method dur now).warnMonotonic = s.warnMonotonic := by simp [Meter.callHook]
      have := ih (s := s.callHook method dur now)
      rwa [hkeep] at this
    | status option now entered =>
      have hroll : (s.rollWindow now).warnMonotonic = s.warnMonotonic := rollWindow_warnMonotonic
      obtain ⟨hlater, hapart⟩ := ih (s := (s.budgetStatus round option now).1)
      by_cases hw : (s.rollWindow now).Warns (budgetCore option) now
      · have hset : (s.budgetStatus round option now).1.warnMonotonic = now := by
          simp only [Meter.budgetStatus, if_pos hw]
        have hsince : 60 ≤ now - s.warnMonotonic := hroll ▸ hw.2.2
        rw [hset] at hlater
        simp only [warnings, if_pos hw, List.singleton_append, List.pairwise_cons]
        refine ⟨fun w hmem => ?_, hlater, hapart⟩
        rcases List.mem_cons.mp hmem with rfl | hmem
        · exact hsince
        · linarith [hlater w hmem]
      · have hkeep : (s.budgetStatus round option now).1.warnMonotonic = s.warnMonotonic := by
          simp only [Meter.budgetStatus, if_neg hw, hroll]
        rw [hkeep] at hlater
        simp only [warnings, if_neg hw, List.nil_append]
        exact ⟨hlater, hapart⟩

end

/-! ## The status -/

section

variable [Field K] [LinearOrder K] [IsStrictOrderedRing K] {start now : K} {acts : List (Act K)}

theorem cpu_nonneg (h : ∀ a ∈ acts, ∀ m, 0 ≤ a.cpu m) (m : Method) : 0 ≤ cpu m acts :=
  List.sum_nonneg fun x hx => by
    obtain ⟨a, ha, rfl⟩ := List.mem_map.mp hx
    exact h a ha m

theorem total_append_le {past since : List (Act K)} (h : ∀ a ∈ past, ∀ m, 0 ≤ a.cpu m) : total since ≤ total (past ++ since) := by
  simp only [total, cpu_append]
  linarith [cpu_nonneg h .onFrame, cpu_nonneg h .onEvent, cpu_nonneg h .other]

/-- What a status says of the calls, where the window was opened at `t`. -/
structure Tells (round : K → K) (acts : List (Act K)) (now entered t : K) (st : Status K) : Prop where
  young : now - 10 < t ∧ t ≤ entered
  window : ∃ past since, acts = past ++ since ∧ (∀ a ∈ past, a.entered ≤ t) ∧ (∀ a ∈ since, t ≤ a.entered) ∧
    (∀ m, st.byMethod m = round (cpu m since)) ∧ st.core = round (total since / 10) ∧
    (st.exceeded = true ↔ st.limit < total since / 10)

theorem status_tells (round : K → K) (option : Option K) (h : InOrder start (acts ++ [.status option now entered])) :
    ∃ t, Tells round acts now entered t ((run round start acts).budgetStatus round option now).2 := by
  obtain ⟨hacts, hstart, hle, hread⟩ := inOrder_concat h
  obtain ⟨t, hholds, hbefore⟩ := run_holds round hacts
  obtain ⟨t', ht', hroll, hyoung⟩ := hholds.roll (hbefore entered hstart hle) hle (show now ≤ entered from hread)
  obtain ⟨past, since, hsplit, hpast, hsince, hsum⟩ := hroll.holds
  have hcore : ((run round start acts).rollWindow now).core = total since / 10 := by
    simp only [Meter.core, hsum, total, hookBudgetWindowS_eq]
  refine ⟨t', ⟨(sub_lt_comm.mp hyoung).trans_le hroll.opened, ht'⟩, past, since, hsplit, hpast, hsince, fun m => ?_, ?_, ?_⟩
  · exact congrArg round (hsum m)
  · exact congrArg round hcore
  · simp only [Meter.budgetStatus, hcore, gt_iff_lt, decide_eq_true_eq]

/-- Whatever is asked of the meter and when: the status is that of the calls of a
window less than ten seconds old, so a budget that is told exceeded was exceeded in
the last ten seconds; and the warnings are a minute apart. -/
theorem budget_metered (round : K → K) (option : Option K) (h : InOrder start (acts ++ [.status option now entered]))
    (hcpu : ∀ a ∈ acts, ∀ m, 0 ≤ a.cpu m) :
    let st := ((run round start acts).budgetStatus round option now).2
    (∃ t, Tells round acts now entered t st) ∧
      (st.exceeded = true → st.limit * 10 < total (acts.filter fun a => now - 10 < a.entered)) ∧
      (warnings round (Meter.init start) (acts ++ [.status option now entered])).Pairwise fun v w => 60 ≤ w - v := by
  intro st
  obtain ⟨t, htells⟩ := status_tells round option h
  refine ⟨⟨t, htells⟩, fun hexceeded => ?_, warnings_apart.2⟩
  obtain ⟨past, since, rfl, -, hsince, -, -, hiff⟩ := htells.window
  have hrecent : since.filter (fun a => now - 10 < a.entered) = since :=
    List.filter_eq_self.mpr fun a ha => by simpa using htells.young.1.trans_le (hsince a ha)
  rw [List.filter_append, hrecent]
  calc
    st.limit * 10 < total since := (lt_div_iff₀ (by norm_num)).mp (hiff.mp hexceeded)
    _ ≤ _ := total_append_le fun a ha => hcpu a (List.mem_append_left _ (List.mem_of_mem_filter ha))

/-- Two calls that make more than the default budget in ten seconds. -/
theorem budget_metered_twoCalls :
    let acts : List (Act ℚ) := [.call .onFrame (3 / 5) 1 1, .call .onEvent (3 / 5) 2 2]
    let st := ((run id 0 acts).budgetStatus id none 3).2
    st.exceeded = true ∧ st.limit * 10 < total (acts.filter fun a => 3 - 10 < a.entered) := by
  intro acts st
  have horder : InOrder 0 (acts ++ [.status none 3 3]) := ⟨by decide +kernel, by decide +kernel⟩
  have hcpu : ∀ a ∈ acts, ∀ m, 0 ≤ a.cpu m := by
    refine List.forall_mem_cons.mpr ⟨fun m => ?_, List.forall_mem_singleton.mpr fun m => ?_⟩ <;> cases m <;> decide +kernel
  have hexceeded : st.exceeded = true := by decide +kernel
  exact ⟨hexceeded, (budget_metered id none horder hcpu).2.1 hexceeded⟩

end

end RetailVision.HookBudget
