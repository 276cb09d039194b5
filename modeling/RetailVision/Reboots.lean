/-
A device over its boots: a process loads the configuration with the streams
file there is, a supervisor runs, and writes the file again for each stream that
is added or removed; at any moment the process dies or the power is lost, also
in the middle of a write, and it boots again. Whatever happens, it boots with
what some supervisor has written, whole, or with what there was at first
(`always_boots`).

What `json.loads` makes of what `json.dump` wrote is asked of each list that is
written. A write that raises is the `persistFails` of the supervisor. Left out:
that the configuration file itself, or a file that is a link, is changed.
-/
import RetailVision.PersistedStreams
import RetailVision.SupervisorIds
import RetailVision.AtomicWrite

set_option linter.all false

namespace RetailVision.Reboots

open Lib RetailVision.Config RetailVision.Supervisor
open AtomicWrite (Phase History Texts)

/-! ## The shares of the shards -/

/-- The elements of each of `n` kinds, one kind after the other. -/
theorem perm_kinds {α : Type} (kind : α → Nat) {n : Nat} {l : List α} (hl : ∀ x ∈ l, kind x < n) :
    ((List.range n).flatMap fun i => l.filter fun x => kind x == i).Perm l := by
  induction n generalizing l with
  | zero =>
    have hnil : l = [] := List.eq_nil_iff_forall_not_mem.mpr fun x hx => Nat.not_lt_zero _ (hl x hx)
    rw [hnil]
    exact List.Perm.refl _
  | succ n ih =>
    have hrest : ∀ x ∈ l.filter fun x => !(kind x == n), kind x < n := by
      intro x hx
      obtain ⟨hmem, hne⟩ := List.mem_filter.mp hx
      have hlt := hl x hmem
      have hne : kind x ≠ n := by simpa using hne
      omega
    have hsame : ((List.range n).flatMap fun i => (l.filter fun x => !(kind x == n)).filter fun x => kind x == i) =
        (List.range n).flatMap fun i => l.filter fun x => kind x == i := by
      refine List.flatMap_congr fun i hi => ?_
      rw [List.filter_filter]
      refine List.filter_congr fun x _ => ?_
      have hni : i ≠ n := Nat.ne_of_lt (List.mem_range.mp hi)
      by_cases hk : kind x = i
      · simp [hk, hni]
      · simp [hk]
    rw [List.range_succ, List.flatMap_append, List.flatMap_singleton, ← hsame]
    refine ((ih hrest).append_right _).trans ?_
    exact (List.perm_append_comm).trans (List.filter_append_perm _ _)

/-- **Every stream is dealt to one shard.** -/
theorem dealt_perm {count : Nat} {streams : List Stream} (hcount : 0 < count) :
    ((List.range count).map (dealt count streams)).flatten.Perm streams := by
  have hkinds := perm_kinds (fun sj : Stream × Nat => sj.2 % count) (l := streams.zipIdx) fun _ _ => Nat.mod_lt _ hcount
  have hmap := hkinds.map Prod.fst
  rw [List.map_flatMap, List.zipIdx_map_fst] at hmap
  rw [← List.flatMap_def]
  exact hmap

theorem shardCountFor_pos {cfg : Config} {n : Nat} (hw : ∀ w, cfg.workers = some w → 0 < w) : 0 < shardCountFor cfg n := by
  have hdesired : 0 < (if cfg.maxStreamsPerWorker = 0 then 1
      else max 1 ((n + cfg.maxStreamsPerWorker - 1) / cfg.maxStreamsPerWorker)) := by
    split
    · exact Nat.one_pos
    · exact Nat.lt_of_lt_of_le Nat.one_pos (Nat.le_max_left ..)
  unfold shardCountFor
  dsimp only
  cases hworkers : cfg.workers with
  | none => exact hdesired
  | some w => exact Nat.lt_min.mpr ⟨hdesired, hw w hworkers⟩

variable {py : Py} {partly allowDev : Bool} {data merged : Json} {streamsFile : Option Json}

/-- A configuration that loads starts shards with distinct ids. -/
theorem startOf_ids (hload : load py partly allowDev data streamsFile = .ok merged) :
    ((((List.range (shardCountFor (configOf merged) (streamsOf merged).length)).map
      (dealt (shardCountFor (configOf merged) (streamsOf merged).length) (streamsOf merged))).flatten).map
        (·.streamId)).Nodup := by
  obtain ⟨m, ss, h⟩ := load_ok hload
  obtain ⟨old, ha⟩ := h.accepts
  have hworkers : ∀ w, (configOf merged).workers = some w → 0 < w := by
    intro w hw
    have hruntime := ha.runtime.2
    rw [← h.runtime] at hruntime
    simp only [checkRuntime, check_bind] at hruntime
    simp only [configOf] at hw
    obtain hauto | ⟨i, hint, hi⟩ := checkWorkers_eq_ok hruntime.1
    · rw [hauto] at hw
      cases hw
    · rw [hint] at hw
      cases hw
      omega
  refine ((dealt_perm (shardCountFor_pos hworkers)).map _).nodup_iff.mpr ?_
  have hpass := checkStreams_eq_ok.mp h.streamsPass
  have hids : (streamsOf merged).map (·.streamId) = ss.map sidOf := by
    rw [streamsOf, h.streamsAre, List.map_map]
    refine List.map_congr_left fun j hj => ?_
    rw [Function.comp_apply, ← sidOf_json, json_ofJson (hpass.1 j hj).1.isObject]
  rw [hids]
  exact hpass.2.1

/-! ## The device -/

variable {β : Type}

structure Device (β : Type) where
  volume : Volume String β
  /-- the write of the streams file that is going on -/
  phase : Phase String β
  /-- the supervisor, and the configuration that it was started from -/
  up : Option (Json × Supervisor.State)

inductive Act (β : Type)
  | boot
  | supervisor (a : Supervisor.Action)
  /-- `_persist_streams` comes to write the file, under a temporary name -/
  | persist (tmp : String)
  | write (n : Nat)
  | fsync
  | chmod
  | replace
  | fail
  /-- the call raises, the temporary file being removed or not -/
  | raise (unlinked : Bool) (error : String)
  | crash (pick : String → Nat) (torn : Nat → List β)

section

variable (py : Py) (partly allowDev : Bool) (data : Json)
  (dump : Json → List β) (loads : List β → Except String Json)

/-- The path of the streams file. -/
def target : String := streamsFileOf (merge defaults data)

/-- `load`, with the streams file if there is one. -/
def loadWith (file : Option (List β)) : Except String Json :=
  match file with
  | none => load py partly allowDev data none
  | some text =>
    if target data = "" then load py partly allowDev data none
    else do
      validate py partly allowDev data
      load py partly allowDev data (some (← loads text))

def ioStep (d : Device β) (a : AtomicWrite.Act String β) : Option (AtomicWrite.State String β) :=
  AtomicWrite.step (target data) false ⟨d.volume, d.phase⟩ a

/-- A call that goes on. -/
def goOn (d : Device β) (a : AtomicWrite.Act String β) : Option (Device β) :=
  (ioStep data d a).map fun w => { d with volume := w.volume, phase := w.phase }

/-- A call that comes back to the supervisor. -/
def comeBack (d : Device β) (a : AtomicWrite.Act String β) (b : Supervisor.Action) : Option (Device β) :=
  match ioStep data d a, d.up with
  | some w, some (m, s) => (Supervisor.step (configOf m) s b).map fun s' => ⟨w.volume, w.phase, some (m, s')⟩
  | _, _ => none

/-- What the command thread comes to after a write. -/
def endsWrite : Supervisor.Action → Bool
  | .persist | .persistFails _ => true
  | _ => false

def step (d : Device β) : Act β → Option (Device β)
  | .boot => match d.up, loadWith py partly allowDev data loads (d.volume.read (target data)) with
    | none, .ok merged => some { d with up := some (merged, startOf merged) }
    | _, _ => none
  | .supervisor b => match d.up with
    | some (m, s) =>
      if endsWrite b && (configOf m).streamsFile then none
      else (Supervisor.step (configOf m) s b).map fun s' => { d with up := some (m, s') }
    | none => none
  | .persist tmp => match d.up with
    | some (m, s) => match s.op with
      | .persisting _ =>
        if (configOf m).streamsFile then goOn data d (.mkstemp tmp (dump (.arr (s.streams.map (·.json))))) else none
      | _ => none
    | none => none
  | .write n => goOn data d (.write n)
  | .fsync => goOn data d .fsync
  | .chmod => goOn data d .chmod
  | .fail => goOn data d .fail
  | .replace => comeBack data d .replace .persist
  | .raise true error => comeBack data d .unlink (.persistFails error)
  | .raise false error => comeBack data d .unlinkFails (.persistFails error)
  | .crash pick torn => some ⟨d.volume.crash pick torn, .idle, none⟩

/-- What the steps of a run are asked: the commands are those the control plane
lets pass, an added stream has a transport and options that the loader knows, a
shard that takes an add knows of the id if some shard has it, and a list that is
written can be read again. -/
def Checked (d : Device β) : Act β → Prop
  | .supervisor a => (∀ c, a = .takeUp c → FromControl c) ∧ (∀ st, a = .takeUp (.addStream st) → Loadable py st.json) ∧
      ∀ ms ∈ d.up, AddChecked ms.2 a
  | .persist _ => ∀ ms ∈ d.up, loads (dump (.arr (ms.2.streams.map (·.json)))) = .ok (.arr (ms.2.streams.map (·.json)))
  | _ => True

end

/-! ## The invariant -/

/-- A text that reads as a list of streams with which the configuration loads. -/
def Good (py : Py) (partly allowDev : Bool) (data : Json) (loads : List β → Except String Json) (text : List β) : Prop :=
  ∃ ss, loads text = .ok (.arr ss) ∧ LoadsBack py partly allowDev data ss

/-- A supervisor that was started from a configuration that loads. -/
structure Runs (py : Py) (partly allowDev : Bool) (data : Json) (m : Json) (s : Supervisor.State)
    (as : List Supervisor.Action) : Prop where
  loads : ∃ streamsFile, load py partly allowDev data streamsFile = .ok m
  run : run (Supervisor.step (configOf m)) (startOf m) as = some s
  commands : ∀ c, .takeUp c ∈ as → FromControl c
  streams : ∀ st, .takeUp (.addStream st) ∈ as → Loadable py st.json
  checked : Meets (Supervisor.step (configOf m)) AddChecked (startOf m) as

variable {dump : Json → List β} {loads : List β → Except String Json} {d d' : Device β} {first : Option (List β)}
  {h : History β} {m : Json} {s s' : Supervisor.State} {as : List Supervisor.Action} {a : Act β}

theorem Runs.step {b : Supervisor.Action} (hr : Runs py partly allowDev data m s as)
    (hs : Supervisor.step (configOf m) s b = some s') (hcmd : ∀ c, b = .takeUp c → FromControl c)
    (hadd : ∀ st, b = .takeUp (.addStream st) → Loadable py st.json) (hchecked : AddChecked s b) :
    Runs py partly allowDev data m s' (as ++ [b]) where
  loads := hr.loads
  run := run_snoc.mpr ⟨s, hr.run, hs⟩
  commands c hc := by
    obtain hc | hc := List.mem_append.mp hc
    · exact hr.commands c hc
    · exact hcmd c (List.mem_singleton.mp hc).symm
  streams st hst := by
    obtain hst | hst := List.mem_append.mp hst
    · exact hr.streams st hst
    · exact hadd st (List.mem_singleton.mp hst).symm
  checked := hr.checked.snoc hr.run hchecked

/-- **What a supervisor is about to write loads again.** -/
theorem Runs.loadsBack {c : Request} (hr : Runs py partly allowDev data m s as) (hop : s.op = .persisting c)
    (hfile : (configOf m).streamsFile = true) : LoadsBack py partly allowDev data (s.streams.map (·.json)) := by
  obtain ⟨streamsFile, hload⟩ := hr.loads
  have hpersist : Supervisor.step (configOf m) s .persist = some ((s.persistStreams (configOf m)).ack c none) := by
    show stepOp (configOf m) s .persist = _
    rw [stepOp, hop]
  have hnext := hr.step hpersist (fun c hc => by cases hc) (fun st hst => by cases hst) trivial
  have hpersisted : ((s.persistStreams (configOf m)).ack c none).persisted = some s.streams := by
    rw [State.persistStreams, if_pos hfile]
    rfl
  have hids := (ids_nodup_of_addChecked (startOf_ids hload) hnext.checked hnext.run).2 _ hpersisted
  have hiff := persisted_loads_iff hload hnext.commands hnext.run hpersisted hids
  exact hiff.1.mpr (hiff.2 hnext.streams)

structure Inv (py : Py) (partly allowDev : Bool) (data : Json) (loads : List β → Except String Json)
    (first : Option (List β)) (d : Device β) (h : History β) : Prop where
  write : AtomicWrite.Inv (target data) first ⟨d.volume, d.phase⟩ h
  texts : Texts (Good py partly allowDev data loads) ⟨d.volume, d.phase⟩ h
  up : ∀ m s, d.up = some (m, s) → ∃ as, Runs py partly allowDev data m s as

/-- What a step of the write does to the file. -/
theorem Inv.ioStep {b : AtomicWrite.Act String β} {w : AtomicWrite.State String β}
    (hi : Inv py partly allowDev data loads first d h) (hb : ∀ tmp text, b = .mkstemp tmp text → Good py partly allowDev data loads text)
    (hs : ioStep data d b = some w) {up : Option (Json × Supervisor.State)}
    (hup : ∀ m s, up = some (m, s) → ∃ as, Runs py partly allowDev data m s as) :
    ∃ h', Inv py partly allowDev data loads first ⟨w.volume, w.phase, up⟩ h' :=
  ⟨_, hi.write.step hs, AtomicWrite.texts_step hb hi.texts hs, hup⟩

theorem Inv.goOn {b : AtomicWrite.Act String β} (hi : Inv py partly allowDev data loads first d h)
    (hb : ∀ tmp text, b = .mkstemp tmp text → Good py partly allowDev data loads text) (hs : goOn data d b = some d') :
    ∃ h', Inv py partly allowDev data loads first d' h' := by
  obtain ⟨w, hw, rfl⟩ := Option.map_eq_some_iff.mp hs
  exact hi.ioStep hb hw hi.up

theorem Inv.comeBack {b : AtomicWrite.Act String β} {c : Supervisor.Action} (hi : Inv py partly allowDev data loads first d h)
    (hb : ∀ tmp text, b ≠ .mkstemp tmp text) (hcmd : ∀ r, c ≠ .takeUp r) (hchecked : ∀ s, AddChecked s c)
    (hs : comeBack data d b c = some d') : ∃ h', Inv py partly allowDev data loads first d' h' := by
  rw [Reboots.comeBack] at hs
  split at hs
  next w m s hw hup =>
    obtain ⟨s', hs', rfl⟩ := Option.map_eq_some_iff.mp hs
    refine hi.ioStep (fun tmp text h => absurd h (hb tmp text)) hw fun m' t ht => ?_
    cases ht
    obtain ⟨as, hr⟩ := hi.up m s hup
    exact ⟨_, hr.step hs' (fun r h => absurd h (hcmd r)) (fun st h => absurd h (hcmd _)) (hchecked s)⟩
  · cases hs

theorem loadWith_ok {file : Option (List β)} (hl : loadWith py partly allowDev data loads file = .ok merged) :
    ∃ streamsFile, load py partly allowDev data streamsFile = .ok merged := by
  unfold loadWith at hl
  split at hl
  · exact ⟨none, hl⟩
  · split at hl
    · exact ⟨none, hl⟩
    · obtain ⟨-, hl⟩ := check_bind.mp hl
      cases hj : loads _ with
      | error e =>
        rw [hj] at hl
        cases hl
      | ok j =>
        rw [hj] at hl
        exact ⟨some j, hl⟩

theorem loadWith_good {text : List β} (hgood : Good py partly allowDev data loads text) :
    ∃ merged, loadWith py partly allowDev data loads (some text) = .ok merged := by
  obtain ⟨ss, hloads, merged, hload, -⟩ := hgood
  have hvalid := (check_bind.mp hload).1
  rw [loadWith]
  split
  next hfile =>
    refine ⟨merge defaults data, ?_⟩
    rw [load, check_bind]
    exact ⟨hvalid, if_pos hfile⟩
  next hfile =>
    refine ⟨merged, check_bind.mpr ⟨hvalid, ?_⟩⟩
    rw [hloads]
    exact hload

/-- **A step keeps the invariant.** -/
theorem inv_step (hc : Checked py dump loads d a) (hi : Inv py partly allowDev data loads first d h)
    (hs : step py partly allowDev data dump loads d a = some d') : ∃ h', Inv py partly allowDev data loads first d' h' := by
  cases a with
  | boot =>
    rw [step] at hs
    split at hs
    next merged hup hload =>
      cases hs
      refine ⟨h, hi.write, hi.texts, fun m s hms => ?_⟩
      cases hms
      exact ⟨[], loadWith_ok hload, rfl, by simp, by simp, trivial⟩
    · cases hs
  | supervisor b =>
    obtain ⟨hcmd, hadd, hchecked⟩ := hc
    rw [step] at hs
    split at hs
    next m s hup =>
      split at hs
      · cases hs
      · obtain ⟨s', hs', rfl⟩ := Option.map_eq_some_iff.mp hs
        refine ⟨h, hi.write, hi.texts, fun m' t ht => ?_⟩
        cases ht
        obtain ⟨as, hr⟩ := hi.up m s hup
        exact ⟨_, hr.step hs' hcmd hadd (hchecked (m, s) hup)⟩
    · cases hs
  | persist tmp =>
    rw [step] at hs
    split at hs
    next m s hup =>
      split at hs
      next c hop =>
        obtain ⟨hfile, hs⟩ := Option.ite_none_right_eq_some.mp hs
        refine hi.goOn (fun tmp' text htext => ?_) hs
        cases htext
        obtain ⟨as, hr⟩ := hi.up m s hup
        exact ⟨_, hc (m, s) hup, hr.loadsBack hop hfile⟩
      · cases hs
    · cases hs
  | write n => exact hi.goOn (fun tmp text h => by cases h) hs
  | fsync => exact hi.goOn (fun tmp text h => by cases h) hs
  | chmod => exact hi.goOn (fun tmp text h => by cases h) hs
  | fail => exact hi.goOn (fun tmp text h => by cases h) hs
  | replace => exact hi.comeBack (c := .persist) (fun tmp text h => by cases h) (fun r h => by cases h) (fun s => trivial) hs
  | raise unlinked error =>
    cases unlinked with
    | true =>
      exact hi.comeBack (c := .persistFails error) (fun tmp text h => by cases h) (fun r h => by cases h) (fun s => trivial) hs
    | false =>
      exact hi.comeBack (c := .persistFails error) (fun tmp text h => by cases h) (fun r h => by cases h) (fun s => trivial) hs
  | crash pick torn =>
    cases hs
    exact hi.ioStep (b := .crash pick torn) (fun tmp text h => by cases h) rfl fun m s h => by cases h

/-! ## Runs -/

/-- **A device always boots**: whatever is added and removed, whatever fails and
whenever the power is lost, over any number of boots, the configuration loads
with what the streams file holds, which is the whole of what some supervisor has
written, or what it was at first. -/
theorem always_boots {v : Volume String β} {as : List (Act β)}
    (hfirst : ∃ merged, loadWith py partly allowDev data loads (v.read (target data)) = .ok merged)
    (hsettled : v.Settled (target data) (· = v.read (target data)))
    (hm : Meets (step py partly allowDev data dump loads) (Checked py dump loads) ⟨v, .idle, none⟩ as)
    (hr : run (step py partly allowDev data dump loads) ⟨v, .idle, none⟩ as = some d) :
    (∃ merged, loadWith py partly allowDev data loads (d.volume.read (target data)) = .ok merged) ∧
      (d.volume.read (target data) = v.read (target data) ∨ ∃ text ss, d.volume.read (target data) = some text ∧
        loads text = .ok (.arr ss) ∧ LoadsBack py partly allowDev data ss) := by
  have hstart : Inv py partly allowDev data loads (v.read (target data)) ⟨v, .idle, none⟩ ⟨[], v.read (target data)⟩ := by
    refine ⟨⟨hsettled.imp fun c hc => .inl hc, rfl, trivial, trivial⟩, ⟨by simp, trivial⟩, fun m s h => by cases h⟩
  obtain ⟨h, hi⟩ : ∃ h, Inv py partly allowDev data loads (v.read (target data)) d h := by
    refine run_invariant (I := fun d => ∃ h, Inv py partly allowDev data loads (v.read (target data)) d h)
      (fun d a d' hc hi hs => ?_) hm ⟨_, hstart⟩ hr
    obtain ⟨h, hi⟩ := hi
    exact inv_step hc hi hs
  obtain hsame | ⟨text, htext, hread⟩ := hi.write.settled.read
  · have hsame : d.volume.read (target data) = v.read (target data) := hsame
    rw [hsame]
    exact ⟨hfirst, .inl rfl⟩
  · have hread : d.volume.read (target data) = some text := hread
    have hgood := hi.texts.1 text htext
    rw [hread]
    obtain ⟨ss, hloads, hback⟩ := hgood
    exact ⟨loadWith_good ⟨ss, hloads, hback⟩, .inr ⟨text, ss, rfl, hloads, hback⟩⟩

/-- The pieces that `json.dump` writes of the streams after `addRun`. -/
def oneCamera : List String :=
  ["[\x7b\"stream_id\": \"cam-1\", \"url\": \"rtsp://camera/1\", \"name\": \"\", \"transport\": \"tcp\", ",
    "\"score_threshold\": null, \"options\": \x7b\x7d\x7d]"]

def readOneCamera (text : List String) : Except String Json :=
  if text = oneCamera then .ok (.arr [(addedStream (addParams "tcp")).json])
  else .error "Expecting value: line 1 column 1 (char 0)"

/-- A directory with no streams file. -/
def noFiles : Volume String String := { inodes := fun _ => ⟨[], true⟩, next := 0, names := fun _ => none, past := fun _ => [] }

/-- The camera is added and the file written; then the power is lost. -/
def addAndLose : List (Act String) :=
  [.supervisor (.workerStarted 0), .supervisor (.readerRecv 0),
    .supervisor (.takeUp (.addStream (addedStream (addParams "tcp")))), .supervisor .send, .supervisor (.workerRecv 0 .ok),
    .supervisor (.readerRecv 0), .supervisor .takeReply, .supervisor .commit,
    .persist "/data/vb/streams.json.8f3k.tmp", .write 1, .write 1, .fsync, .chmod, .replace, .crash (fun _ => 0) (fun _ => [])]

def deviceStep := step exactPy false false device (fun _ => oneCamera) readOneCamera

def booted : Device String := ⟨noFiles, .idle, some (merge defaults device, startOf (merge defaults device))⟩

theorem device_boots : deviceStep ⟨noFiles, .idle, none⟩ .boot = some booted := by
  have hload : loadWith exactPy false false device readOneCamera (noFiles.read (target device)) = .ok (merge defaults device) :=
    device_loads
  rw [deviceStep, step, hload]
  rfl

def DeviceChecked := Checked exactPy (fun _ => oneCamera) readOneCamera

/-- A step that is neither a command nor an add that a shard takes. -/
theorem checked_other {d : Device String} {b : Supervisor.Action} (hcmd : ∀ c, b ≠ .takeUp c)
    (hchecked : ∀ s, AddChecked s b) : DeviceChecked d (.supervisor b) :=
  ⟨fun c h => absurd h (hcmd c), fun _ h => absurd h (hcmd _), fun ms _ => hchecked ms.2⟩

theorem addAndLose_checked : Meets deviceStep DeviceChecked booted addAndLose := by
  refine (meets_cons_some rfl).mpr ⟨checked_other (by simp) (fun _ => trivial), ?_⟩
  refine (meets_cons_some rfl).mpr ⟨checked_other (by simp) (fun _ => trivial), ?_⟩
  refine (meets_cons_some rfl).mpr ⟨⟨?_, ?_, fun _ _ => trivial⟩, ?_⟩
  · intro c hc
    cases hc
    exact @addRun_fromControl "tcp" _ (by simp [addRun, done])
  · intro st hst
    cases hst
    exact ⟨.inl rfl, by decide +kernel⟩
  refine (meets_cons_some rfl).mpr ⟨checked_other (by simp) (fun _ => trivial), ?_⟩
  refine (meets_cons_some rfl).mpr ⟨⟨by simp, by simp, ?_⟩, ?_⟩
  · intro ms hms
    cases hms
    exact fun _ => .inr (by decide)
  refine (meets_cons_some rfl).mpr ⟨checked_other (by simp) (fun _ => trivial), ?_⟩
  refine (meets_cons_some rfl).mpr ⟨checked_other (by simp) (fun _ => trivial), ?_⟩
  refine (meets_cons_some rfl).mpr ⟨checked_other (by simp) (fun _ => trivial), ?_⟩
  refine (meets_cons_some rfl).mpr ⟨?_, ?_⟩
  · intro ms hms
    cases hms
    rfl
  have hwrite : ∀ a ∈ addAndLose.drop 9, ∀ d, DeviceChecked d a := by
    intro a ha d
    simp only [addAndLose, List.drop, List.mem_cons, List.not_mem_nil, or_false] at ha
    obtain rfl | rfl | rfl | rfl | rfl | rfl := ha
    all_goals trivial
  exact meets_of_mem hwrite

theorem always_boots_addAndLose : ∃ d, run deviceStep ⟨noFiles, .idle, none⟩ (.boot :: addAndLose) = some d ∧
    ∃ merged, loadWith exactPy false false device readOneCamera (d.volume.read (target device)) = .ok merged := by
  have hrun : ∃ d, run deviceStep booted addAndLose = some d := ⟨_, rfl⟩
  obtain ⟨d, hd⟩ := hrun
  have hall : run deviceStep ⟨noFiles, .idle, none⟩ (.boot :: addAndLose) = some d := run_cons.mpr ⟨booted, device_boots, hd⟩
  refine ⟨d, hall, ?_⟩
  refine (always_boots ?_ ?_ ((meets_cons_some device_boots).mpr ⟨trivial, addAndLose_checked⟩) hall).1
  · exact ⟨merge defaults device, device_loads⟩
  · intro e he
    cases List.mem_singleton.mp he
    exact rfl

end RetailVision.Reboots
