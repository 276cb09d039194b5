/-
What a shard keeps of its streams (`vision_base/shard.py`): the contexts by
index, the index by `stream_id`, the active indices, and the index the next
registration gets, which is never used again. `contexts` and `_by_stream_id`
are dicts, in insertion order.

Left out: what the hooks keep in a context, and its analyzer overrides.
-/
import RetailVision.Json

set_option linter.all false

namespace RetailVision.ShardStreams

/-- `StreamSpec` -/
structure StreamSpec where
  streamId : String
  url : String
  name : String
  transport : String
  /-- a float or `None` -/
  scoreThreshold : Json
  options : Json

/-- `StreamContext` -/
structure StreamContext where
  spec : StreamSpec
  lastState : Option String

structure Registry where
  contexts : List (Nat × StreamContext)
  byStreamId : List (String × Nat)
  active : List Nat
  nextIndex : Nat

/-- What waits for the hook thread; a removed stream brings its context. -/
inductive Item
  | added (idx : Nat)
  | state (idx : Nat) (state error : String)
  | event (idx : Nat)
  | tensors (idx : Nat)
  | removed (idx : Nat) (ctx : Option StreamContext)

/-- `dict.pop(key, None)` -/
def pop {κ α : Type} [DecidableEq κ] (key : κ) (d : List (κ × α)) : List (κ × α) := d.filter fun kv => kv.1 ≠ key

/-- `dict.get(key)` -/
def get {κ α : Type} [DecidableEq κ] (d : List (κ × α)) (key : κ) : Option α :=
  (d.find? fun kv => kv.1 = key).map (·.2)

namespace Registry

/-- A shard without streams. -/
def empty : Registry := { contexts := [], byStreamId := [], active := [], nextIndex := 0 }

def context (r : Registry) (idx : Nat) : Option StreamContext := get r.contexts idx

/-- `_by_stream_id.get(stream_id)` -/
def index (r : Registry) (streamId : String) : Option Nat := get r.byStreamId streamId

/-- The block of `add_stream` under `_mu`, for a `stream_id` not in use. -/
def register (r : Registry) (spec : StreamSpec) : Registry where
  contexts := r.contexts ++ [(r.nextIndex, { spec := spec, lastState := none })]
  byStreamId := r.byStreamId ++ [(spec.streamId, r.nextIndex)]
  active := r.active ++ [r.nextIndex]
  nextIndex := r.nextIndex + 1

/-- The stream is active no more, and its `stream_id` free. -/
def unlist (r : Registry) (streamId : String) (idx : Nat) : Registry :=
  { r with
    byStreamId := if r.index streamId = some idx then pop streamId r.byStreamId else r.byStreamId
    active := r.active.erase idx }

/-- `self.contexts.pop(idx, None)`, `self._active.discard(idx)` -/
def forget (r : Registry) (idx : Nat) : Registry :=
  { r with contexts := pop idx r.contexts, active := r.active.erase idx }

/-- The block of `_rollback_add` under `_mu`. -/
def rollback (r : Registry) (streamId : String) (idx : Nat) : Registry := (r.unlist streamId idx).forget idx

/-- `ctx.last_state = state` -/
def setState (r : Registry) (idx : Nat) (state : String) : Registry :=
  { r with contexts := r.contexts.map fun kv => if kv.1 = idx then (kv.1, { kv.2 with lastState := some state }) else kv }

end Registry

variable {κ α : Type} [DecidableEq κ] {d : List (κ × α)} {key k : κ} {v : α} {r : Registry} {idx i : Nat}
  {spec : StreamSpec} {streamId state : String}

@[simp] theorem get_nil : get ([] : List (κ × α)) key = none := rfl

theorem get_pop_self : get (pop key d) key = none := by
  have : (pop key d).find? (fun kv => kv.1 = key) = none := by simp [pop]
  simp [get, this]

theorem get_pop_ne (hk : k ≠ key) : get (pop key d) k = get d k := by
  induction d with
  | nil => rfl
  | cons kv d ih =>
    simp only [get, pop] at ih ⊢
    by_cases hkv : kv.1 = key
    · have hne : kv.1 ≠ k := fun he => hk (he.symm.trans hkv)
      simpa [hkv, hne, hk.symm] using ih
    · by_cases hkk : kv.1 = k
      · simp [hkk, hk]
      · simpa [hkv, hkk] using ih

theorem get_append_of_none (hd : get d key = none) : get (d ++ [(key, v)]) key = some v := by
  simp only [get, Option.map_eq_none_iff] at hd
  simp [get, List.find?_append, hd]

theorem get_append_ne (hk : k ≠ key) : get (d ++ [(key, v)]) k = get d k := by
  simp [get, List.find?_append, hk.symm]

namespace Registry

@[simp] theorem nextIndex_register : (r.register spec).nextIndex = r.nextIndex + 1 := rfl

@[simp] theorem nextIndex_unlist : (r.unlist streamId idx).nextIndex = r.nextIndex := rfl

@[simp] theorem nextIndex_forget : (r.forget idx).nextIndex = r.nextIndex := rfl

@[simp] theorem nextIndex_rollback : (r.rollback streamId idx).nextIndex = r.nextIndex := rfl

@[simp] theorem nextIndex_setState : (r.setState idx state).nextIndex = r.nextIndex := rfl

/-- No index from the next one on has been given out. -/
def Fresh (r : Registry) : Prop := ∀ i, r.nextIndex ≤ i → r.context i = none ∧ i ∉ r.active

theorem context_register_self (hf : r.Fresh) :
    (r.register spec).context r.nextIndex = some { spec := spec, lastState := none } :=
  get_append_of_none (hf r.nextIndex le_rfl).1

theorem context_register_ne (hi : i ≠ r.nextIndex) : (r.register spec).context i = r.context i := get_append_ne hi

theorem context_forget_self : (r.forget idx).context idx = none := get_pop_self

theorem context_forget_ne (hi : i ≠ idx) : (r.forget idx).context i = r.context i := get_pop_ne hi

@[simp] theorem context_unlist : (r.unlist streamId idx).context i = r.context i := rfl

theorem context_setState : (r.setState idx state).context i =
    (r.context i).map fun ctx => if i = idx then { ctx with lastState := some state } else ctx := by
  simp only [context, get, setState]
  induction r.contexts with
  | nil => rfl
  | cons kv d ih =>
    by_cases hi : kv.1 = i
    · by_cases hx : kv.1 = idx
      · simp [hi, hi.symm.trans hx]
      · simp [hi, hi ▸ hx]
    · by_cases hx : kv.1 = idx
      · have : idx ≠ i := hx ▸ hi
        simpa [hi, hx, this] using ih
      · simpa [hi, hx] using ih

@[simp] theorem index_setState : (r.setState idx state).index streamId = r.index streamId := rfl

theorem index_register_self (hs : r.index spec.streamId = none) :
    (r.register spec).index spec.streamId = some r.nextIndex := get_append_of_none hs

theorem index_register_ne (hs : streamId ≠ spec.streamId) :
    (r.register spec).index streamId = r.index streamId := get_append_ne hs

theorem index_unlist_self (hs : r.index streamId = some idx) : (r.unlist streamId idx).index streamId = none := by
  show get (if r.index streamId = some idx then pop streamId r.byStreamId else r.byStreamId) streamId = none
  rw [if_pos hs]
  exact get_pop_self

theorem index_unlist_ne {other : String} (hs : r.index streamId = some idx) (ho : other ≠ streamId) :
    (r.unlist streamId idx).index other = r.index other := by
  show get (if r.index streamId = some idx then pop streamId r.byStreamId else r.byStreamId) other = _
  rw [if_pos hs]
  exact get_pop_ne ho

@[simp] theorem index_forget : (r.forget idx).index streamId = r.index streamId := rfl

theorem Fresh.setState (hf : r.Fresh) : (r.setState idx state).Fresh := by
  intro i hi
  refine ⟨?_, (hf i hi).2⟩
  rw [context_setState, (hf i hi).1]
  rfl

theorem Fresh.lt (hf : r.Fresh) (hi : (r.context i).isSome) : i < r.nextIndex := by
  by_contra hlt
  rw [(hf i (by omega)).1] at hi
  cases hi

theorem Fresh.empty : Registry.empty.Fresh := fun _ _ => ⟨rfl, by simp [Registry.empty]⟩

theorem Fresh.register (hf : r.Fresh) : (r.register spec).Fresh := by
  intro i hi
  have hi : r.nextIndex + 1 ≤ i := hi
  have hold := hf i (by omega)
  refine ⟨?_, ?_⟩
  · rw [context_register_ne (by omega)]
    exact hold.1
  · simp only [Registry.register, List.mem_append, List.mem_singleton]
    exact fun hm => hm.elim hold.2 (by omega)

theorem Fresh.unlist (hf : r.Fresh) : (r.unlist streamId idx).Fresh :=
  fun i hi => ⟨(hf i hi).1, fun hm => (hf i hi).2 (List.mem_of_mem_erase hm)⟩

theorem Fresh.forget (hf : r.Fresh) : (r.forget idx).Fresh := by
  intro i hi
  refine ⟨?_, fun hm => (hf i hi).2 (List.mem_of_mem_erase hm)⟩
  by_cases hx : i = idx
  · rw [hx]
    exact context_forget_self
  · rw [context_forget_ne hx]
    exact (hf i hi).1

theorem Fresh.rollback (hf : r.Fresh) : (r.rollback streamId idx).Fresh := hf.unlist.forget

end Registry

end RetailVision.ShardStreams
