/-
When `configure` is atomic. Every field is looked at before it is read, but
for the id of a line, a zone or a joint and the ends of a line: there nlohmann
throws, and nothing up to the pool thread catches it. So `configure` is atomic
exactly where each entry it comes to has an id that is a string, and a line
ends that are pairs of numbers.
-/
import RetailVision.Analyzers

set_option linter.all false

namespace RetailVision.Analyzers

open Lib Checked

variable {F T L : Type} {ar : Arith F} {α β : Type} {who text key must : String} {j e : Json} {maxVertices : Nat}

/-! ## Which entries `configure` comes to, and what it needs of them -/

/-- The id of an entry, where it is a string. -/
def idOf (e : Json) : String :=
  match e.find "id" with
  | some (.str s) => s
  | _ => ""

/-- `get<float>` takes it. -/
def IsFloat : Json → Prop
  | .int _ | .float _ | .bool _ => True
  | _ => False

/-- An end of a line: two numbers, and whatever follows. -/
def IsEnd (v : Json) : Prop := ∃ x y rest, v = .arr (x :: y :: rest) ∧ IsFloat x ∧ IsFloat y

/-- An entry that has the keys has a string for its id. -/
def StringId (keys : List String) (e : Json) : Prop :=
  (∀ k ∈ keys, (e.find k).isSome = true) → ∃ s, e.find "id" = some (.str s)

/-- The same for a line; and if its id is a new one, its ends are ends. -/
def TypedLine (before : List Json) (e : Json) : Prop :=
  ∀ id a b, e.find "id" = some id → e.find "a" = some a → e.find "b" = some b →
    ∃ s, id = .str s ∧ (ValidId s → s ∉ before.map idOf → IsEnd a ∧ IsEnd b)

/-- A vertex within the picture. -/
def GoodPoint (ar : Arith F) (p : Json) : Prop :=
  ∃ x y nx ny, p = .arr [x, y] ∧ x.number ar = some nx ∧ y.number ar = some ny ∧
    outside 1 nx.1 = false ∧ outside 1 ny.1 = false

structure GoodZone (ar : Arith F) (maxVertices : Nat) (e : Json) : Prop where
  id : ∃ s, e.find "id" = some (.str s) ∧ ValidId s
  polygon : ∃ ps, e.find "polygon" = some (.arr ps) ∧ 3 ≤ ps.length ∧ ps.length ≤ maxVertices ∧
    ∀ p ∈ ps, GoodPoint ar p

/-- The ends of a line, as floats. -/
def EndsAt (ar : Arith F) (v : Json) (x y : F) : Prop :=
  ∃ a b rest, v = .arr (a :: b :: rest) ∧ a.getFloat ar = .ok x ∧ b.getFloat ar = .ok y

structure GoodLine (ar : Arith F) (e : Json) : Prop where
  id : ∃ s, e.find "id" = some (.str s) ∧ ValidId s
  ends : ∃ a b ax ay bx by_, e.find "a" = some a ∧ e.find "b" = some b ∧ EndsAt ar a ax ay ∧ EndsAt ar b bx by_ ∧
    ar.degenerate ax ay bx by_ = false

/-- A limit of a joint that is absent, null or a number of degrees. -/
def GoodLimit (ar : Arith F) (e : Json) (key : String) : Prop :=
  ∀ v, e.find key = some v → v = .null ∨ ∃ n, v.number ar = some n ∧ outside 180 n.1 = false

/-- A limit that is given. -/
def HasLimit (e : Json) (key : String) : Prop := ∃ v, e.find key = some v ∧ v ≠ .null

structure GoodJoint (ar : Arith F) (e : Json) : Prop where
  id : ∃ s, e.find "id" = some (.str s) ∧ ValidId s
  points : ∀ k ∈ ["a", "b", "c"], ∃ v, e.find k = some (.int v) ∧ 0 ≤ toInt32 v
  limits : GoodLimit ar e "min_deg" ∧ GoodLimit ar e "max_deg"
  given : HasLimit e "min_deg" ∨ HasLimit e "max_deg"

/-- The entries under a key, if they are not too many. -/
def capped (key : String) (j : Json) : List Json :=
  match j.find key with
  | some (.arr xs) => if xs.length ≤ 64 then xs else []
  | _ => []

/-- The joints, however many. -/
def jointsOf (j : Json) : List Json :=
  match j.find "joints" with
  | some (.arr xs) => xs
  | _ => []

/-- Classes that `parse_classes` takes. -/
def GoodClasses (j : Json) : Prop :=
  ∀ v, j.find "classes" = some v → v = .null ∨ ∃ xs, v = .arr xs ∧ ∀ x ∈ xs, ∃ i, x = .int i

open Classical in
/-- The entries that are read, as long as they are good. -/
noncomputable def entries : Analyzer → Json → List Json
  | .lineCross, j => capped "lines" j
  | .zone, j | .dwell, j | .direction, j | .countThreshold, j => capped "zones" j
  | .speed, _ => []
  | .poseAngle, j => if GoodClasses j then jointsOf j else []

/-- These entries go through, one after the other. -/
def AllGood (ar : Arith F) : Analyzer → List Json → Prop
  | .lineCross, es => (∀ e ∈ es, GoodLine ar e) ∧ (es.map idOf).Nodup
  | .zone, es => (∀ e ∈ es, GoodZone ar 16 e) ∧ (es.map idOf).Nodup
  | .dwell, es | .direction, es | .countThreshold, es => (∀ e ∈ es, GoodZone ar 64 e) ∧ (es.map idOf).Nodup
  | .speed, _ => True
  | .poseAngle, es => ∀ e ∈ es, GoodJoint ar e

/-- What the entry must be, with these before it. -/
def Typed : Analyzer → List Json → Json → Prop
  | .lineCross, before, e => TypedLine before e
  | .poseAngle, _, e => StringId ["id", "a", "b", "c"] e
  | .zone, _, e | .dwell, _, e | .direction, _, e | .countThreshold, _, e | .speed, _, e =>
    StringId ["id", "polygon"] e

/-- **The types `configure` takes for granted** are those of each entry it comes
to: one with only good entries before it. -/
def WellTyped (ar : Arith F) (a : Analyzer) (j : Json) : Prop :=
  ∀ before e after, entries a j = before ++ e :: after → AllGood ar a before → Typed a before e

/-! ## Readers that look before they read -/

theorem say_ne_nil : say who text ≠ [] := by
  have hlen : (utf8 (who ++ ": " ++ text)).length = (who ++ ": " ++ text).utf8ByteSize := by
    rw [utf8, Array.length_toList, ← String.size_toByteArray]
    rfl
  intro h
  rw [say] at h
  rw [h, List.length_nil, String.utf8ByteSize_append, String.utf8ByteSize_append] at hlen
  have h2 : (": " : String).utf8ByteSize = 2 := by decide
  omega

/-- Refuses with an error that says something, if it refuses. -/
def TellsWhy (x : Reader α) : Prop := x.Tells (· ≠ [])

/-- The same, and never throws. -/
structure Quiet (x : Reader α) : Prop where
  tells : TellsWhy x
  noThrow : ¬ x.Throws

variable {x : Reader α} {f : α → Reader β}

theorem Quiet.ok {a : α} : Quiet (.ok a : Reader α) := ⟨trivial, id⟩

theorem Quiet.refused : Quiet (.refused (say who text) : Reader α) := ⟨say_ne_nil, id⟩

theorem Quiet.bind (hx : Quiet x) (hf : ∀ a, Quiet (f a)) : Quiet (x >>= f) :=
  ⟨bind_tells hx.tells fun a => (hf a).tells, bind_not_throws hx.noThrow fun a => (hf a).noThrow⟩

theorem Quiet.require {p : Prop} [Decidable p] : Quiet (Checked.require p (say who text)) :=
  ⟨require_tells.mpr fun _ => say_ne_nil, require_throws⟩

theorem Quiet.forEach {g : List β → α → Reader β} {acc : List β} {xs : List α} (hg : ∀ acc x, Quiet (g acc x)) :
    Quiet (Checked.forEach g acc xs) :=
  ⟨forEach_tells fun acc x => (hg acc x).tells, forEach_not_throws fun acc x => (hg acc x).noThrow⟩

/-- Only the first part of a cascade can throw. -/
theorem throws_first (hf : ∀ a, Quiet (f a)) : (x >>= f).Throws ↔ x.Throws := by
  rw [bind_throws]
  exact ⟨fun h => h.resolve_right fun ⟨a, _, h⟩ => (hf a).noThrow h, .inl⟩

/-- Only what follows can throw. -/
theorem throws_rest (hx : Quiet x) : (x >>= f).Throws ↔ ∃ a, x = .ok a ∧ (f a).Throws := by
  rw [bind_throws]
  exact ⟨fun h => h.resolve_left hx.noThrow, .inr⟩

theorem quiet_parseClasses : Quiet (parseClasses who j) := by
  unfold parseClasses
  split
  · exact .ok
  · exact .ok
  · refine .forEach fun acc x => ?_
    unfold parseClass
    split
    · exact .ok
    · exact .refused
  · exact .refused

theorem quiet_parseAnchor : Quiet (parseAnchor who j) := by
  unfold parseAnchor
  split
  · exact .ok
  · exact .ok
  · split
    · exact .ok
    · exact .refused
  · exact .refused

theorem quiet_optNumber {bad : F64 → Bool} : Quiet (optNumber ar who key must bad j) := by
  unfold optNumber
  split
  · exact .ok
  · exact .ok
  · split
    · exact .refused
    · split
      · exact .refused
      · exact .ok

theorem quiet_parsePoint : Quiet (parsePoint ar who e) := by
  unfold parsePoint
  split
  · split
    · split
      · exact .refused
      · exact .ok
    · exact .refused
  · exact .refused

theorem quiet_getf {dflt : F} {hi : Rat} : Quiet (getf ar key dflt hi j) := by
  unfold getf
  split
  · exact .ok
  · split
    · exact .refused
    · split
      · exact .refused
      · exact .ok

theorem quiet_minTrackFrames : Quiet (minTrackFrames j) := by
  unfold minTrackFrames
  split
  · exact .ok
  · split
    · exact .refused
    · exact .ok
  · exact .refused

theorem quiet_zoneMinDwell : Quiet (zoneMinDwell ar j) := by
  unfold zoneMinDwell
  split
  · exact .ok
  · split
    · exact .refused
    · split
      · exact .refused
      · exact .ok

theorem quiet_parseHomography : Quiet (parseHomography ar j) := by
  unfold parseHomography
  split
  · exact .ok
  · exact .ok
  · refine Quiet.require.bind fun _ => (Quiet.forEach fun acc x => ?_).bind fun _ => .ok
    split
    · exact .ok
    · exact .refused
  · exact .refused

theorem quiet_optCount : Quiet (optCount ar key j) := by
  unfold optCount
  split
  · exact .ok
  · exact .ok
  · split
    · exact .refused
    · exact .ok
  · exact .refused

theorem quiet_someOf : Quiet (someOf who key j) := by
  unfold someOf
  split
  · exact Quiet.require.bind fun _ => .ok
  · exact .refused

theorem quiet_jointIndex {id : String} : Quiet (jointIndex id key j) := by
  unfold jointIndex
  split
  · split
    · exact .refused
    · exact .ok
  · exact .refused

/-! ## Accessors that throw -/

/-- Never refuses: it goes through or throws. -/
def Strict (x : Reader α) : Prop := x.Tells fun _ => False

theorem Strict.tells (h : Strict x) : TellsWhy x := Tells.mono h fun _ hf => hf.elim

theorem strict_getString {v : Json} : Strict v.getString := by
  unfold Json.getString
  split <;> trivial

theorem strict_getFloat {v : Json} : Strict (v.getFloat ar) := by
  unfold Json.getFloat
  split <;> trivial

theorem strict_atIndex {v : Json} {i : Nat} : Strict (v.atIndex i) := by
  unfold Json.atIndex
  split
  · split <;> trivial
  · trivial

/-! ## Zones -/

theorem quiet_parsePolygon : Quiet (parsePolygon ar who maxVertices e) := by
  unfold parsePolygon
  split
  · exact Quiet.require.bind fun _ => .forEach fun _ _ => quiet_parsePoint
  · exact .refused

theorem getString_throws {v : Json} : v.getString.Throws ↔ ¬ ∃ s, v = .str s := by
  cases v <;> simp [Json.getString]

theorem parseZone_tells {zones : List (Zone F)} : TellsWhy (parseZone ar who maxVertices zones e) := by
  unfold parseZone
  split
  · exact bind_tells strict_getString.tells fun id => (Quiet.require.bind fun _ => Quiet.require.bind fun _ =>
      quiet_parsePolygon.bind fun _ => .ok).tells
  · exact say_ne_nil

/-- A zone throws at its id only. -/
theorem parseZone_throws {zones : List (Zone F)} :
    (parseZone ar who maxVertices zones e).Throws ↔ ¬ StringId ["id", "polygon"] e := by
  unfold parseZone StringId
  split
  · next id poly hid hpoly =>
    rw [throws_first fun id => Quiet.require.bind fun _ => Quiet.require.bind fun _ =>
      quiet_parsePolygon.bind fun _ => .ok, getString_throws]
    simp [hid, hpoly]
  · next hno =>
    simp only [throws_refused, false_iff, not_not]
    intro h
    obtain ⟨id, hid⟩ := Option.isSome_iff_exists.mp (h "id" (by simp))
    obtain ⟨poly, hpoly⟩ := Option.isSome_iff_exists.mp (h "polygon" (by simp))
    exact absurd hpoly (hno id poly hid)

theorem parsePoint_ok : (∃ q, parsePoint ar who e = .ok q) ↔ GoodPoint ar e := by
  constructor
  · rintro ⟨q, h⟩
    unfold parsePoint at h
    split at h
    · next x y =>
      split at h
      · next nx ny hx hy =>
        split at h
        · cases h
        · next hin =>
          simp only [Bool.or_eq_true, not_or, Bool.not_eq_true] at hin
          exact ⟨x, y, nx, ny, rfl, hx, hy, hin.1, hin.2⟩
      · cases h
    · cases h
  · rintro ⟨x, y, nx, ny, rfl, hx, hy, hinx, hiny⟩
    exact ⟨(nx.2, ny.2), by simp [parsePoint, hx, hy, hinx, hiny]⟩

theorem parsePolygon_ok : (∃ poly, parsePolygon ar who maxVertices e = .ok poly) ↔
    ∃ ps, e = .arr ps ∧ 3 ≤ ps.length ∧ ps.length ≤ maxVertices ∧ ∀ p ∈ ps, GoodPoint ar p := by
  unfold parsePolygon
  split
  · next ps =>
    have hpts := @forEach_accepts Bytes Json (F × F) (fun _ p => parsePoint ar who p) [] ps (GoodPoint ar)
      fun _ _ => parsePoint_ok
    simp only [bind_ok, require_ok, exists_const, exists_and_left, hpts]
    constructor
    · rintro ⟨hlen, hgood⟩
      exact ⟨ps, rfl, hlen.1, hlen.2, hgood⟩
    · rintro ⟨ps', he, h3, hmax, hgood⟩
      cases he
      exact ⟨⟨h3, hmax⟩, hgood⟩
  · next hno =>
    constructor
    · rintro ⟨poly, h⟩
      cases h
    · rintro ⟨ps, he, -⟩
      exact absurd he (hno ps)

theorem idOf_of_find {id : String} (h : e.find "id" = some (.str id)) : idOf e = id := by simp [idOf, h]

theorem getString_ok {v : Json} {id : String} : v.getString = .ok id ↔ v = .str id := by
  cases v <;> simp [Json.getString]

/-- A zone goes through that is good and has a new id. -/
theorem parseZone_ok {zones : List (Zone F)} : (∃ z, parseZone ar who maxVertices zones e = .ok z) ↔
    GoodZone ar maxVertices e ∧ idOf e ∉ zones.map (·.id) := by
  unfold parseZone
  split
  · next id poly hid hpoly =>
    have hp := @parsePolygon_ok F ar who poly maxVertices
    constructor
    · rintro ⟨z, h⟩
      obtain ⟨s, hs, h⟩ := bind_ok.mp h
      obtain ⟨_, hvalid, h⟩ := bind_ok.mp h
      obtain ⟨_, hnew, h⟩ := bind_ok.mp h
      obtain ⟨pts, hpts, -⟩ := bind_ok.mp h
      rw [getString_ok] at hs
      subst hs
      obtain ⟨ps, rfl, hps⟩ := hp.mp ⟨pts, hpts⟩
      rw [idOf_of_find hid]
      exact ⟨⟨⟨s, hid, require_ok.mp hvalid⟩, ⟨ps, hpoly, hps⟩⟩, require_ok.mp hnew⟩
    · rintro ⟨⟨⟨s, hs, hvalid⟩, ⟨ps, hps, hgood⟩⟩, hnew⟩
      rw [idOf_of_find hs] at hnew
      rw [hid, Option.some_inj] at hs
      rw [hpoly, Option.some_inj] at hps
      subst hs hps
      obtain ⟨pts, hpts⟩ := hp.mpr ⟨ps, rfl, hgood⟩
      refine ⟨⟨s, pts⟩, bind_ok.mpr ⟨s, getString_ok.mpr rfl, bind_ok.mpr ⟨(), require_ok.mpr hvalid,
        bind_ok.mpr ⟨(), require_ok.mpr hnew, bind_ok.mpr ⟨pts, hpts, rfl⟩⟩⟩⟩⟩
  · next hno =>
    constructor
    · rintro ⟨z, h⟩
      cases h
    · rintro ⟨⟨⟨s, hs, -⟩, ⟨ps, hps, -⟩⟩, -⟩
      exact absurd hps (hno _ _ hs)

theorem parseZone_id {zones : List (Zone F)} {z : Zone F} (h : parseZone ar who maxVertices zones e = .ok z) :
    z.id = idOf e := by
  unfold parseZone at h
  split at h
  · next id poly hid hpoly =>
    obtain ⟨s, hs, h⟩ := bind_ok.mp h
    obtain ⟨_, _, h⟩ := bind_ok.mp h
    obtain ⟨_, _, h⟩ := bind_ok.mp h
    obtain ⟨pts, _, hz⟩ := bind_ok.mp h
    rw [getString_ok] at hs
    rw [hs] at hid
    rw [idOf_of_find hid]
    cases hz
    rfl
  · cases h

/-! ## Lines -/

theorem isFloat_iff {v : Json} : IsFloat v ↔ ∃ x, v.getFloat ar = .ok x := by
  cases v <;> simp [Json.getFloat, IsFloat]

theorem strict_rd {v : Json} : Strict (rd ar v) :=
  bind_tells strict_atIndex fun _ => bind_tells strict_getFloat fun _ => bind_tells strict_atIndex fun _ =>
    bind_tells strict_getFloat fun _ => trivial

theorem rd_ok {v : Json} {x y : F} : rd ar v = .ok (x, y) ↔ EndsAt ar v x y := by
  cases v with
  | arr xs =>
    rcases xs with _ | ⟨a, _ | ⟨b, rest⟩⟩
    · simp [rd, Json.atIndex, EndsAt]
    · simp [rd, Json.atIndex, EndsAt, bind_ok]
    · simp only [rd, Json.atIndex, List.getElem?_cons_zero, List.getElem?_cons_succ, ok_bind, bind_ok, EndsAt]
      constructor
      · rintro ⟨x', hx, y', hy, h⟩
        cases h
        exact ⟨a, b, rest, rfl, hx, hy⟩
      · rintro ⟨a', b', rest', he, hx, hy⟩
        cases he
        exact ⟨x, hx, y, hy, rfl⟩
  | _ => simp [rd, Json.atIndex, EndsAt]

theorem isEnd_iff {v : Json} : IsEnd v ↔ ∃ p, rd ar v = .ok p := by
  constructor
  · rintro ⟨a, b, rest, rfl, ha, hb⟩
    obtain ⟨x, hx⟩ := isFloat_iff.mp ha
    obtain ⟨y, hy⟩ := isFloat_iff.mp hb
    exact ⟨(x, y), rd_ok.mpr ⟨a, b, rest, rfl, hx, hy⟩⟩
  · rintro ⟨⟨x, y⟩, hp⟩
    obtain ⟨a, b, rest, hv, hx, hy⟩ := rd_ok.mp hp
    exact ⟨a, b, rest, hv, isFloat_iff.mpr ⟨x, hx⟩, isFloat_iff.mpr ⟨y, hy⟩⟩

theorem rd_throws {v : Json} : (rd ar v).Throws ↔ ¬ IsEnd v := by
  rw [throws_of_never_refuses strict_rd, isEnd_iff]

/-- What can follow the ends of a line. -/
theorem quiet_degenerate {a b : F × F} {id : String} : Quiet (do
    Checked.require (ar.degenerate a.1 a.2 b.1 b.2 = false) (say "line_cross" ("line " ++ id ++ " is degenerate"))
    .ok ⟨id, a.1, a.2, b.1, b.2⟩ : Reader (Line F)) := Quiet.require.bind fun _ => .ok

theorem parseLine_tells {lines : List (Line F)} : TellsWhy (parseLine ar lines e) := by
  unfold parseLine
  split
  · exact bind_tells strict_getString.tells fun id => bind_tells Quiet.require.tells fun _ =>
      bind_tells Quiet.require.tells fun _ => bind_tells strict_rd.tells fun _ => bind_tells strict_rd.tells fun _ =>
        quiet_degenerate.tells
  · exact say_ne_nil

/-- A line throws at its id, or at its ends if the id is a new one. -/
theorem parseLine_throws {lines : List (Line F)} {before : List Json} (hids : lines.map (·.id) = before.map idOf) :
    (parseLine ar lines e).Throws ↔ ¬ TypedLine before e := by
  unfold parseLine TypedLine
  split
  · next id a b hid ha hb =>
    have hends : ∀ id : String, (do
        let a ← rd ar a
        let b ← rd ar b
        Checked.require (ar.degenerate a.1 a.2 b.1 b.2 = false) (say "line_cross" ("line " ++ id ++ " is degenerate"))
        .ok ⟨id, a.1, a.2, b.1, b.2⟩ : Reader (Line F)).Throws ↔ ¬ (IsEnd a ∧ IsEnd b) := by
      intro id
      rw [bind_throws, rd_throws]
      by_cases hend : IsEnd a
      · obtain ⟨p, hp⟩ : ∃ p, rd ar a = .ok p := isEnd_iff.mp hend
        simp only [hend, not_true_eq_false, hp, ok.injEq, exists_eq_left', false_or, true_and]
        rw [throws_first fun _ => quiet_degenerate, rd_throws]
      · simp [hend]
    constructor
    · intro hth htyped
      obtain ⟨s, rfl, hs⟩ := htyped id a b hid ha hb
      rw [Json.getString, ok_bind, throws_rest Quiet.require] at hth
      obtain ⟨_, hvalid, hth⟩ := hth
      rw [throws_rest Quiet.require] at hth
      obtain ⟨_, hnew, hth⟩ := hth
      rw [require_ok] at hvalid hnew
      rw [hids] at hnew
      exact (hends s).mp hth (hs hvalid hnew)
    · intro hno
      by_contra hth
      refine hno fun id' a' b' hid' ha' hb' => ?_
      rw [hid, Option.some_inj] at hid'
      rw [ha, Option.some_inj] at ha'
      rw [hb, Option.some_inj] at hb'
      subst hid' ha' hb'
      by_cases hstr : ∃ s, id = .str s
      · obtain ⟨s, rfl⟩ := hstr
        refine ⟨s, rfl, fun hvalid hnew => ?_⟩
        by_contra hend
        rw [← hids] at hnew
        refine hth ?_
        rw [Json.getString, ok_bind, throws_rest Quiet.require]
        refine ⟨(), require_ok.mpr hvalid, ?_⟩
        rw [throws_rest Quiet.require]
        exact ⟨(), require_ok.mpr hnew, (hends s).mpr hend⟩
      · exact absurd (bind_throws.mpr (.inl (getString_throws.mpr hstr))) hth
  · next hno =>
    simp only [throws_refused, false_iff, not_not]
    intro id a b hid ha hb
    exact absurd hb (hno id a b hid ha)

/-- A line goes through that is good and has a new id. -/
theorem parseLine_ok {lines : List (Line F)} : (∃ l, parseLine ar lines e = .ok l) ↔
    GoodLine ar e ∧ idOf e ∉ lines.map (·.id) := by
  unfold parseLine
  split
  · next id a b hid ha hb =>
    constructor
    · rintro ⟨l, h⟩
      obtain ⟨s, hs, h⟩ := bind_ok.mp h
      obtain ⟨_, hvalid, h⟩ := bind_ok.mp h
      obtain ⟨_, hnew, h⟩ := bind_ok.mp h
      obtain ⟨p, hp, h⟩ := bind_ok.mp h
      obtain ⟨q, hq, h⟩ := bind_ok.mp h
      obtain ⟨_, hdeg, _⟩ := bind_ok.mp h
      rw [getString_ok] at hs
      subst hs
      rw [idOf_of_find hid]
      exact ⟨⟨⟨s, hid, require_ok.mp hvalid⟩, ⟨a, b, p.1, p.2, q.1, q.2, ha, hb, rd_ok.mp hp, rd_ok.mp hq,
        require_ok.mp hdeg⟩⟩, require_ok.mp hnew⟩
    · rintro ⟨⟨⟨s, hs, hvalid⟩, ⟨a', b', ax, ay, bx, by_, ha', hb', hp, hq, hdeg⟩⟩, hnew⟩
      rw [idOf_of_find hs] at hnew
      rw [hid, Option.some_inj] at hs
      rw [ha, Option.some_inj] at ha'
      rw [hb, Option.some_inj] at hb'
      subst hs ha' hb'
      exact ⟨⟨s, ax, ay, bx, by_⟩, bind_ok.mpr ⟨s, rfl, bind_ok.mpr ⟨(), require_ok.mpr hvalid,
        bind_ok.mpr ⟨(), require_ok.mpr hnew, bind_ok.mpr ⟨(ax, ay), rd_ok.mpr hp, bind_ok.mpr ⟨(bx, by_),
          rd_ok.mpr hq, bind_ok.mpr ⟨(), require_ok.mpr hdeg, rfl⟩⟩⟩⟩⟩⟩⟩
  · next hno =>
    constructor
    · rintro ⟨l, h⟩
      cases h
    · rintro ⟨⟨⟨s, hs, -⟩, ⟨a, b, _, _, _, _, ha, hb, -⟩⟩, -⟩
      exact absurd hb (hno _ _ _ hs ha)

theorem parseLine_id {lines : List (Line F)} {l : Line F} (h : parseLine ar lines e = .ok l) : l.id = idOf e := by
  unfold parseLine at h
  split at h
  · next id a b hid ha hb =>
    obtain ⟨s, hs, h⟩ := bind_ok.mp h
    obtain ⟨_, _, h⟩ := bind_ok.mp h
    obtain ⟨_, _, h⟩ := bind_ok.mp h
    obtain ⟨p, _, h⟩ := bind_ok.mp h
    obtain ⟨q, _, h⟩ := bind_ok.mp h
    obtain ⟨_, _, hl⟩ := bind_ok.mp h
    rw [getString_ok] at hs
    rw [hs] at hid
    rw [idOf_of_find hid]
    cases hl
    rfl
  · cases h

/-! ## Joints -/

theorem optNumber_limit {n : Option (F64 × F)} (h : optNumber ar who key must (outside 180) e = .ok n) :
    GoodLimit ar e key ∧ (n.isSome = true ↔ HasLimit e key) := by
  unfold optNumber at h
  split at h
  · next hf =>
    cases h
    refine ⟨fun v hv => ?_, by simp [HasLimit, hf]⟩
    rw [hf] at hv
    cases hv
  · next hf =>
    cases h
    refine ⟨fun v hv => .inl ?_, by simp [HasLimit, hf]⟩
    rw [hf] at hv
    cases hv
    rfl
  · next v hnull hf =>
    split at h
    · cases h
    · next m hm =>
      split at h
      · cases h
      · next hin =>
        cases h
        have hv : v ≠ .null := fun he => hnull he
        refine ⟨fun v' hv' => .inr ⟨m, ?_, by simpa using hin⟩, by simp [HasLimit, hf, hv]⟩
        rw [hf] at hv'
        cases hv'
        exact hm

theorem optNumber_of_limit (h : GoodLimit ar e key) : ∃ n, optNumber ar who key must (outside 180) e = .ok n := by
  cases hf : e.find key with
  | none => exact ⟨none, by simp [optNumber, hf]⟩
  | some v =>
    rcases h v hf with rfl | ⟨n, hn, hin⟩
    · exact ⟨none, by simp [optNumber, hf]⟩
    · by_cases hv : v = .null
      · exact ⟨none, by simp [optNumber, hf, hv]⟩
      · exact ⟨some n, by simp [optNumber, hf, hn, hin]⟩

theorem jointIndex_ok {id : String} : (∃ i, jointIndex id key e = .ok i) ↔
    ∃ v, e.find key = some (.int v) ∧ 0 ≤ toInt32 v := by
  unfold jointIndex
  split
  · next v hf =>
    split
    · next hneg =>
      constructor
      · rintro ⟨i, h⟩
        cases h
      · rintro ⟨v', hv', hpos⟩
        rw [hf] at hv'
        cases hv'
        omega
    · next hpos => exact iff_of_true ⟨_, rfl⟩ ⟨v, hf, Int.not_lt.mp hpos⟩
  · next hno =>
    constructor
    · rintro ⟨i, h⟩
      cases h
    · rintro ⟨v, hv, -⟩
      exact absurd hv (hno v)

/-- What can follow the id of a joint. -/
theorem quiet_jointRest {id : String} : Quiet (do
    Checked.require (ValidId id) (say "pose_angle" "joint id must be 1..32 chars")
    let a ← jointIndex id "a" e
    let b ← jointIndex id "b" e
    let c ← jointIndex id "c" e
    let minDeg ← optNumber ar "pose_angle" "min_deg" ("joint " ++ id ++ ": min_deg must be in [0,180]") (outside 180) e
    let maxDeg ← optNumber ar "pose_angle" "max_deg" ("joint " ++ id ++ ": max_deg must be in [0,180]") (outside 180) e
    Checked.require (minDeg.isSome = true ∨ maxDeg.isSome = true)
      (say "pose_angle" ("joint " ++ id ++ " needs at least one of min_deg / max_deg"))
    .ok { id, a, b, c, minDeg := minDeg.map (·.1), maxDeg := maxDeg.map (·.1) } : Reader Joint) :=
  Quiet.require.bind fun _ => quiet_jointIndex.bind fun _ => quiet_jointIndex.bind fun _ =>
    quiet_jointIndex.bind fun _ => quiet_optNumber.bind fun _ => quiet_optNumber.bind fun _ =>
      Quiet.require.bind fun _ => .ok

theorem parseJoint_tells : TellsWhy (parseJoint ar e) := by
  unfold parseJoint
  split
  · exact bind_tells strict_getString.tells fun id => quiet_jointRest.tells
  · exact say_ne_nil

/-- A joint throws at its id only. -/
theorem parseJoint_throws : (parseJoint ar e).Throws ↔ ¬ StringId ["id", "a", "b", "c"] e := by
  unfold parseJoint StringId
  split
  · next id a b c hid ha hb hc =>
    rw [throws_first fun id => quiet_jointRest, getString_throws]
    simp [hid, ha, hb, hc]
  · next hno =>
    simp only [throws_refused, false_iff, not_not]
    intro h
    obtain ⟨id, hid⟩ := Option.isSome_iff_exists.mp (h "id" (by simp))
    obtain ⟨a, ha⟩ := Option.isSome_iff_exists.mp (h "a" (by simp))
    obtain ⟨b, hb⟩ := Option.isSome_iff_exists.mp (h "b" (by simp))
    obtain ⟨c, hc⟩ := Option.isSome_iff_exists.mp (h "c" (by simp))
    exact absurd hc (hno id a b c hid ha hb)

theorem parseJoint_ok : (∃ jt, parseJoint ar e = .ok jt) ↔ GoodJoint ar e := by
  unfold parseJoint
  split
  · next id a b c hid ha hb hc =>
    constructor
    · rintro ⟨jt, h⟩
      obtain ⟨s, hs, h⟩ := bind_ok.mp h
      obtain ⟨_, hvalid, h⟩ := bind_ok.mp h
      obtain ⟨ia, hia, h⟩ := bind_ok.mp h
      obtain ⟨ib, hib, h⟩ := bind_ok.mp h
      obtain ⟨ic, hic, h⟩ := bind_ok.mp h
      obtain ⟨mn, hmn, h⟩ := bind_ok.mp h
      obtain ⟨mx, hmx, h⟩ := bind_ok.mp h
      obtain ⟨_, hgiven, _⟩ := bind_ok.mp h
      rw [getString_ok] at hs
      subst hs
      obtain ⟨hlmin, hgmin⟩ := optNumber_limit hmn
      obtain ⟨hlmax, hgmax⟩ := optNumber_limit hmx
      refine ⟨⟨s, hid, require_ok.mp hvalid⟩, fun k hk => ?_, ⟨hlmin, hlmax⟩,
        (require_ok.mp hgiven).imp hgmin.mp hgmax.mp⟩
      simp only [List.mem_cons, List.not_mem_nil, or_false] at hk
      rcases hk with rfl | rfl | rfl
      · exact jointIndex_ok.mp ⟨ia, hia⟩
      · exact jointIndex_ok.mp ⟨ib, hib⟩
      · exact jointIndex_ok.mp ⟨ic, hic⟩
    · rintro ⟨⟨s, hs, hvalid⟩, hpoints, ⟨hlmin, hlmax⟩, hgiven⟩
      rw [hid, Option.some_inj] at hs
      subst hs
      obtain ⟨ia, hia⟩ := (@jointIndex_ok "a" e s).mpr (hpoints "a" (by simp))
      obtain ⟨ib, hib⟩ := (@jointIndex_ok "b" e s).mpr (hpoints "b" (by simp))
      obtain ⟨ic, hic⟩ := (@jointIndex_ok "c" e s).mpr (hpoints "c" (by simp))
      obtain ⟨mn, hmn⟩ := @optNumber_of_limit F ar "pose_angle" "min_deg"
        ("joint " ++ s ++ ": min_deg must be in [0,180]") e hlmin
      obtain ⟨mx, hmx⟩ := @optNumber_of_limit F ar "pose_angle" "max_deg"
        ("joint " ++ s ++ ": max_deg must be in [0,180]") e hlmax
      have hg := hgiven.imp (optNumber_limit hmn).2.mpr (optNumber_limit hmx).2.mpr
      exact ⟨_, bind_ok.mpr ⟨s, rfl, bind_ok.mpr ⟨(), require_ok.mpr hvalid, bind_ok.mpr ⟨ia, hia,
        bind_ok.mpr ⟨ib, hib, bind_ok.mpr ⟨ic, hic, bind_ok.mpr ⟨mn, hmn, bind_ok.mpr ⟨mx, hmx,
          bind_ok.mpr ⟨(), require_ok.mpr hg, rfl⟩⟩⟩⟩⟩⟩⟩⟩⟩
  · next hno =>
    constructor
    · rintro ⟨jt, h⟩
      cases h
    · rintro ⟨⟨s, hs, -⟩, hpoints, -, -⟩
      obtain ⟨a, ha, -⟩ := hpoints "a" (by simp)
      obtain ⟨b, hb, -⟩ := hpoints "b" (by simp)
      obtain ⟨c, hc, -⟩ := hpoints "c" (by simp)
      exact absurd hc (hno _ _ _ _ hs ha hb)

/-! ## Whole configurations -/

theorem zones_throw {zs : List Json} : (Checked.forEach (parseZone ar who maxVertices) [] zs).Throws ↔
    ¬ ∀ before e after, zs = before ++ e :: after →
      ((∀ e ∈ before, GoodZone ar maxVertices e) ∧ (before.map idOf).Nodup) → StringId ["id", "polygon"] e :=
  forEach_throws_iff
    (fun _ => forEach_accepts_distinct (fun _ _ _ h => parseZone_id h) (fun _ _ => parseZone_ok) List.nodup_nil)
    fun _ _ _ _ => parseZone_throws

theorem lines_throw {ls : List Json} : (Checked.forEach (parseLine ar) [] ls).Throws ↔
    ¬ ∀ before e after, ls = before ++ e :: after →
      ((∀ e ∈ before, GoodLine ar e) ∧ (before.map idOf).Nodup) → TypedLine before e :=
  forEach_throws_iff
    (fun _ => forEach_accepts_distinct (fun _ _ _ h => parseLine_id h) (fun _ _ => parseLine_ok) List.nodup_nil)
    fun _ _ _ hbs => parseLine_throws (forEach_keys (fun _ _ _ h => parseLine_id h) hbs)

theorem joints_throw {js : List Json} : (Checked.forEach (fun _ jj => parseJoint ar jj) [] js).Throws ↔
    ¬ ∀ before e after, js = before ++ e :: after → (∀ e ∈ before, GoodJoint ar e) →
      StringId ["id", "a", "b", "c"] e :=
  forEach_throws_iff (fun _ => forEach_accepts fun _ _ => parseJoint_ok) fun _ _ _ _ => parseJoint_throws

/-- Nothing to read, nothing to throw. -/
theorem wellTyped_nil {a : Analyzer} (h : entries a j = []) : WellTyped ar a j := by
  intro before e after he
  rw [h] at he
  cases before <;> cases he

theorem quiet_isObject : Quiet (isObject who j) := .require

/-- An array of at most 64 entries, under a key of an object. -/
theorem someOf_ok {xs : List Json} : someOf who key j = .ok xs ↔ j.find key = some (.arr xs) ∧ xs ≠ [] ∧ xs.length ≤ 64 := by
  unfold someOf
  split
  · next ys hf =>
    rw [bind_ok]
    constructor
    · rintro ⟨_, hr, h⟩
      cases h
      exact ⟨hf, require_ok.mp hr⟩
    · rintro ⟨he, hr⟩
      rw [hf] at he
      cases he
      exact ⟨(), require_ok.mpr hr, rfl⟩
  · next hno =>
    constructor
    · intro h
      cases h
    · intro h
      exact absurd h.1 (hno xs)

theorem find_isObject {v : Json} (h : j.find key = some v) : j.isObject = true := by
  cases j with
  | obj kvs => rfl
  | _ => cases h

theorem capped_of_find {xs : List Json} (hf : j.find key = some (.arr xs)) (hlen : xs.length ≤ 64) :
    capped key j = xs := by simp [capped, hf, hlen]

theorem find_of_capped (h : capped key j ≠ []) :
    j.find key = some (.arr (capped key j)) ∧ (capped key j).length ≤ 64 := by
  by_cases hxs : ∃ xs, j.find key = some (.arr xs)
  · obtain ⟨xs, hf⟩ := hxs
    by_cases hlen : xs.length ≤ 64
    · rw [capped_of_find hf hlen]
      exact ⟨hf, hlen⟩
    · exact absurd (by simp [capped, hf, hlen]) h
  · refine absurd ?_ h
    unfold capped
    split
    · next xs hf => exact absurd ⟨xs, hf⟩ hxs
    · rfl

/-- A configuration that starts with a required array of entries. -/
theorem someOf_throws {g : List Json → Reader β} : (do
      isObject who j
      let xs ← someOf who key j
      g xs : Reader β).Throws ↔ capped key j ≠ [] ∧ (g (capped key j)).Throws := by
  rw [throws_rest quiet_isObject]
  constructor
  · rintro ⟨_, _, h⟩
    obtain ⟨xs, hxs, h⟩ := (throws_rest quiet_someOf).mp h
    obtain ⟨hf, hne, hlen⟩ := someOf_ok.mp hxs
    rw [capped_of_find hf hlen]
    exact ⟨hne, h⟩
  · rintro ⟨hne, h⟩
    obtain ⟨hf, hlen⟩ := find_of_capped hne
    exact ⟨(), require_ok.mpr (find_isObject hf),
      (throws_rest quiet_someOf).mpr ⟨_, someOf_ok.mpr ⟨hf, hne, hlen⟩, h⟩⟩

theorem parseZones_tells : TellsWhy (parseZones ar who j : Reader (List (Zone F))) := by
  unfold parseZones
  split
  · trivial
  · trivial
  · exact bind_tells Quiet.require.tells fun _ => forEach_tells fun _ _ => parseZone_tells
  · exact say_ne_nil

/-- The optional zones throw as the entries do. -/
theorem parseZones_throws : (parseZones ar who j : Reader (List (Zone F))).Throws ↔
    (Checked.forEach (parseZone ar who 64) [] (capped "zones" j)).Throws := by
  by_cases hxs : ∃ xs, j.find "zones" = some (.arr xs)
  · obtain ⟨xs, hf⟩ := hxs
    simp only [parseZones, hf]
    rw [throws_rest Quiet.require]
    by_cases hlen : xs.length ≤ 64
    · rw [capped_of_find hf hlen]
      simp [hlen]
    · simp [capped, hf, hlen, Checked.forEach]
  · have hc : capped "zones" j = [] := by
      by_contra hne
      exact hxs ⟨_, (find_of_capped hne).1⟩
    rw [hc]
    unfold parseZones
    split
    · simp [Checked.forEach]
    · simp [Checked.forEach]
    · next xs hf => exact absurd ⟨xs, hf⟩ hxs
    · simp [Checked.forEach]

/-- A configuration that starts with optional zones. -/
theorem zonesFirst_throws {g : List (Zone F) → Reader β} (hg : ∀ zs, Quiet (g zs)) : (do
      isObject who j
      let zones ← parseZones ar who j
      g zones : Reader β).Throws ↔ (Checked.forEach (parseZone ar who 64) [] (capped "zones" j)).Throws := by
  rw [throws_rest quiet_isObject, throws_first hg, parseZones_throws]
  constructor
  · rintro ⟨_, _, h⟩
    exact h
  · intro h
    have hne : capped "zones" j ≠ [] := by
      intro hc
      rw [hc] at h
      exact h
    exact ⟨(), require_ok.mpr (find_isObject (find_of_capped hne).1), h⟩

theorem goodClasses_iff : (∃ cs, parseClasses who j = .ok cs) ↔ GoodClasses j := by
  have hloop : ∀ xs : List Json, (∃ cs, Checked.forEach (fun _ cl => parseClass who cl) [] xs = .ok cs) ↔
      ∀ x ∈ xs, ∃ i, x = .int i := by
    refine fun xs => forEach_accepts fun _ x => ?_
    unfold parseClass
    split
    · next v => exact iff_of_true ⟨_, rfl⟩ ⟨v, rfl⟩
    · next hno => exact iff_of_false (fun ⟨b, h⟩ => by cases h) fun ⟨v, h⟩ => hno v h
  cases hf : j.find "classes" with
  | none => exact iff_of_true ⟨[], by simp [parseClasses, hf]⟩ fun v hv => by rw [hf] at hv; cases hv
  | some v =>
    cases v with
    | null =>
      refine iff_of_true ⟨[], by simp [parseClasses, hf]⟩ fun v hv => .inl ?_
      rw [hf] at hv
      cases hv
      rfl
    | arr xs =>
      simp only [parseClasses, hf, GoodClasses, hloop]
      constructor
      · intro h v hv
        cases hv
        exact .inr ⟨xs, rfl, h⟩
      · intro h
        obtain he | ⟨ys, he, hys⟩ := h _ rfl
        · cases he
        · cases he
          exact hys
    | _ =>
      refine iff_of_false ?_ fun h => ?_
      · rintro ⟨cs, h⟩
        simp [parseClasses, hf] at h
      · obtain he | ⟨ys, he, -⟩ := h _ hf
        · cases he
        · cases he

theorem parseJoints_tells : TellsWhy (parseJoints ar j) := by
  unfold parseJoints
  split
  · trivial
  · trivial
  · exact forEach_tells fun _ _ => parseJoint_tells
  · exact say_ne_nil

theorem find_of_jointsOf (h : jointsOf j ≠ []) : j.find "joints" = some (.arr (jointsOf j)) := by
  by_cases hxs : ∃ xs, j.find "joints" = some (.arr xs)
  · obtain ⟨xs, hf⟩ := hxs
    simp [jointsOf, hf]
  · refine absurd ?_ h
    unfold jointsOf
    split
    · next xs hf => exact absurd ⟨xs, hf⟩ hxs
    · rfl

theorem parseJoints_throws : (parseJoints ar j).Throws ↔
    (Checked.forEach (fun _ jj => parseJoint ar jj) [] (jointsOf j)).Throws := by
  by_cases hxs : ∃ xs, j.find "joints" = some (.arr xs)
  · obtain ⟨xs, hf⟩ := hxs
    simp [parseJoints, jointsOf, hf]
  · have hc : jointsOf j = [] := by
      by_contra hne
      exact hxs ⟨_, find_of_jointsOf hne⟩
    rw [hc]
    unfold parseJoints
    split
    · simp [Checked.forEach]
    · simp [Checked.forEach]
    · next xs hf => exact absurd ⟨xs, hf⟩ hxs
    · simp [Checked.forEach]

/-- What follows the joints. -/
theorem quiet_poseAngleRest {classes : List Int} {joints : List Joint} : Quiet (do
    let minConf ← optNumber ar "pose_angle" "min_conf" "min_conf must be in [0,1]" (outside 1) j
    let holdS ← optNumber ar "pose_angle" "hold_s" "hold_s must be >= 0" negative j
    .ok {
      joints
      minConf := doubleOr (3 / 10) minConf
      holdS := doubleOr (1 / 2) holdS
      classes
      maxIdx := joints.foldl (fun m jt => max (max m jt.a) (max jt.b jt.c)) (-1) } : Reader PoseAngleCfg) :=
  quiet_optNumber.bind fun _ => quiet_optNumber.bind fun _ => .ok

theorem poseAngleCfg_throws : (poseAngleCfg ar j).Throws ↔
    (Checked.forEach (fun _ jj => parseJoint ar jj) [] (entries .poseAngle j)).Throws := by
  unfold poseAngleCfg
  rw [throws_rest quiet_isObject]
  have hrest : ∀ classes, (do
      let joints ← parseJoints ar j
      let minConf ← optNumber ar "pose_angle" "min_conf" "min_conf must be in [0,1]" (outside 1) j
      let holdS ← optNumber ar "pose_angle" "hold_s" "hold_s must be >= 0" negative j
      .ok {
        joints
        minConf := doubleOr (3 / 10) minConf
        holdS := doubleOr (1 / 2) holdS
        classes
        maxIdx := joints.foldl (fun m jt => max (max m jt.a) (max jt.b jt.c)) (-1) } :
          Reader PoseAngleCfg).Throws ↔ (parseJoints ar j).Throws := fun classes => throws_first fun _ => quiet_poseAngleRest
  simp only [throws_rest (@quiet_parseClasses "pose_angle" j), hrest]
  by_cases hcl : GoodClasses j
  · have he : entries .poseAngle j = jointsOf j := by simp [entries, hcl]
    rw [he, ← parseJoints_throws]
    constructor
    · rintro ⟨_, _, _, _, h⟩
      exact h
    · intro h
      have hne : jointsOf j ≠ [] := by
        intro hn
        rw [parseJoints_throws, hn] at h
        exact h
      obtain ⟨cs, hcs⟩ := (@goodClasses_iff "pose_angle" j).mpr hcl
      exact ⟨(), require_ok.mpr (find_isObject (find_of_jointsOf hne)), cs, hcs, h⟩
  · have he : entries .poseAngle j = [] := by simp [entries, hcl]
    rw [he]
    refine iff_of_false ?_ id
    rintro ⟨_, _, cs, hcs, _⟩
    exact hcl (goodClasses_iff.mp ⟨cs, hcs⟩)

theorem poseAngleCfg_tells : TellsWhy (poseAngleCfg ar j) :=
  bind_tells quiet_isObject.tells fun _ => bind_tells quiet_parseClasses.tells fun _ =>
    bind_tells parseJoints_tells fun _ => quiet_poseAngleRest.tells

theorem lineCrossCfg_throws : (lineCrossCfg ar j).Throws ↔
    capped "lines" j ≠ [] ∧ (Checked.forEach (parseLine ar) [] (capped "lines" j)).Throws := by
  unfold lineCrossCfg
  rw [someOf_throws, throws_first fun _ => quiet_getf.bind fun _ => quiet_getf.bind fun _ => quiet_getf.bind fun _ =>
    quiet_getf.bind fun _ => quiet_getf.bind fun _ => quiet_minTrackFrames.bind fun _ =>
      quiet_parseClasses.bind fun _ => .ok]

theorem lineCrossCfg_tells : TellsWhy (lineCrossCfg ar j) :=
  bind_tells quiet_isObject.tells fun _ => bind_tells quiet_someOf.tells fun _ =>
    bind_tells (forEach_tells fun _ _ => parseLine_tells) fun _ => (quiet_getf.bind fun _ => quiet_getf.bind fun _ =>
      quiet_getf.bind fun _ => quiet_getf.bind fun _ => quiet_getf.bind fun _ => quiet_minTrackFrames.bind fun _ =>
        quiet_parseClasses.bind fun _ => .ok).tells

theorem zoneCfg_throws : (zoneCfg ar j).Throws ↔
    capped "zones" j ≠ [] ∧ (Checked.forEach (parseZone ar "zone" 16) [] (capped "zones" j)).Throws := by
  unfold zoneCfg
  rw [someOf_throws, throws_first fun _ => quiet_zoneMinDwell.bind fun _ => quiet_parseClasses.bind fun _ => .ok]

theorem zoneCfg_tells : TellsWhy (zoneCfg ar j) :=
  bind_tells quiet_isObject.tells fun _ => bind_tells quiet_someOf.tells fun _ =>
    bind_tells (forEach_tells fun _ _ => parseZone_tells) fun _ =>
      (quiet_zoneMinDwell.bind fun _ => quiet_parseClasses.bind fun _ => .ok).tells

theorem dwellCfg_throws : (dwellCfg ar j).Throws ↔
    (Checked.forEach (parseZone ar "dwell" 64) [] (capped "zones" j)).Throws := by
  unfold dwellCfg
  rw [zonesFirst_throws fun _ => quiet_parseClasses.bind fun _ => quiet_parseAnchor.bind fun _ =>
    quiet_optNumber.bind fun _ => quiet_optNumber.bind fun _ => quiet_optNumber.bind fun _ => .ok]

theorem dwellCfg_tells : TellsWhy (dwellCfg ar j) :=
  bind_tells quiet_isObject.tells fun _ => bind_tells parseZones_tells fun _ =>
    (quiet_parseClasses.bind fun _ => quiet_parseAnchor.bind fun _ => quiet_optNumber.bind fun _ =>
      quiet_optNumber.bind fun _ => quiet_optNumber.bind fun _ => .ok).tells

theorem directionCfg_throws : (directionCfg ar j).Throws ↔
    (Checked.forEach (parseZone ar "direction" 64) [] (capped "zones" j)).Throws := by
  unfold directionCfg
  rw [zonesFirst_throws fun _ => quiet_parseClasses.bind fun _ => quiet_parseAnchor.bind fun _ =>
    quiet_optNumber.bind fun _ => quiet_optNumber.bind fun _ => quiet_optNumber.bind fun _ =>
      quiet_optNumber.bind fun _ => quiet_optNumber.bind fun _ => .ok]

theorem directionCfg_tells : TellsWhy (directionCfg ar j) :=
  bind_tells quiet_isObject.tells fun _ => bind_tells parseZones_tells fun _ =>
    (quiet_parseClasses.bind fun _ => quiet_parseAnchor.bind fun _ => quiet_optNumber.bind fun _ =>
      quiet_optNumber.bind fun _ => quiet_optNumber.bind fun _ => quiet_optNumber.bind fun _ =>
        quiet_optNumber.bind fun _ => .ok).tells

theorem countThresholdCfg_throws : (countThresholdCfg ar j).Throws ↔
    (Checked.forEach (parseZone ar "count_threshold" 64) [] (capped "zones" j)).Throws := by
  unfold countThresholdCfg
  rw [zonesFirst_throws fun _ => quiet_parseClasses.bind fun _ => quiet_parseAnchor.bind fun _ =>
    quiet_optCount.bind fun _ => quiet_optCount.bind fun _ => Quiet.require.bind fun _ =>
      quiet_optNumber.bind fun _ => .ok]

theorem countThresholdCfg_tells : TellsWhy (countThresholdCfg ar j) :=
  bind_tells quiet_isObject.tells fun _ => bind_tells parseZones_tells fun _ =>
    (quiet_parseClasses.bind fun _ => quiet_parseAnchor.bind fun _ => quiet_optCount.bind fun _ =>
      quiet_optCount.bind fun _ => Quiet.require.bind fun _ => quiet_optNumber.bind fun _ => .ok).tells

/-- Speed looks at everything before it reads it. -/
theorem quiet_speedCfg : Quiet (speedCfg ar j) :=
  quiet_isObject.bind fun _ => quiet_parseClasses.bind fun _ => quiet_parseAnchor.bind fun _ =>
    quiet_optNumber.bind fun _ => quiet_optNumber.bind fun _ => quiet_optNumber.bind fun _ =>
      Quiet.require.bind fun _ => quiet_optNumber.bind fun _ => quiet_parseHomography.bind fun _ => .ok

theorem parseCfg_tells (a : Analyzer) : TellsWhy (a.parseCfg ar j) := by
  cases a with
  | lineCross => exact lineCrossCfg_tells
  | zone => exact zoneCfg_tells
  | dwell => exact dwellCfg_tells
  | speed => exact quiet_speedCfg.tells
  | direction => exact directionCfg_tells
  | countThreshold => exact countThresholdCfg_tells
  | poseAngle => exact poseAngleCfg_tells

/-- A loop that throws has something to read. -/
theorem forEach_throws_ne_nil {g : List β → α → Reader β} {xs : List α} (h : (Checked.forEach g [] xs).Throws) :
    xs ≠ [] := by
  rintro rfl
  exact h

theorem parseCfg_throws (a : Analyzer) : (a.parseCfg ar j).Throws ↔ ¬ WellTyped ar a j := by
  cases a with
  | lineCross =>
    refine lineCrossCfg_throws.trans (Iff.trans ?_ lines_throw)
    exact and_iff_right_of_imp forEach_throws_ne_nil
  | zone =>
    refine zoneCfg_throws.trans (Iff.trans ?_ (@zones_throw F ar "zone" 16 _))
    exact and_iff_right_of_imp forEach_throws_ne_nil
  | dwell => exact dwellCfg_throws.trans zones_throw
  | speed => exact iff_of_false quiet_speedCfg.noThrow fun h => h (wellTyped_nil rfl)
  | direction => exact directionCfg_throws.trans zones_throw
  | countThreshold => exact countThresholdCfg_throws.trans zones_throw
  | poseAngle => exact poseAngleCfg_throws.trans joints_throw

/-! ## `configure` -/

/-- The call has returned: true with the configuration of the text installed, or
false with an error and everything as before. -/
def Atomic (ar : Arith F) (lib : Nlohmann) (a : Analyzer) (s : State F T L a) (text : Bytes) :
    Configured (State F T L a) → Prop
  | .returned true _ s' => ∃ j c, lib.parse text = .ok j ∧ a.parseCfg ar j = .ok c ∧ s'.cfg = c
  | .returned false err s' => err ≠ [] ∧ s' = s
  | .threw _ => False

theorem install_cfg {a : Analyzer} {s : State F T L a} {c : a.Cfg F} : (install ar a s c).cfg = c := by
  cases a <;> rfl

/-- **`configure` is atomic**, in every state and for every text, exactly where
the text is no JSON or has the types that are taken for granted. -/
theorem configure_atomic_iff {lib : Nlohmann} {a : Analyzer} {s : State F T L a} {text : Bytes} :
    Atomic ar lib a s text (configure ar lib a s text) ↔ ∀ j, lib.parse text = .ok j → WellTyped ar a j := by
  unfold configure
  cases hp : lib.parse text with
  | error what =>
    refine iff_of_true ⟨fun h => ?_, rfl⟩ fun j hj => by cases hj
    have hne : utf8 (a.name ++ ": invalid json: ") ≠ [] := by
      cases a <;> decide
    exact hne (List.append_eq_nil_iff.mp h).1
  | ok j =>
    have hiff : (∀ j', Except.ok j = (Except.ok j' : Except Bytes Json) → WellTyped ar a j') ↔
        ¬ (a.parseCfg ar j).Throws := by
      rw [parseCfg_throws, not_not]
      exact ⟨fun h => h j rfl, fun h j' hj => by cases hj; exact h⟩
    rw [hiff]
    have htells := @parseCfg_tells F ar j a
    cases hc : a.parseCfg ar j with
    | ok c =>
      simp only [hc]
      exact iff_of_true ⟨j, c, hp, hc, install_cfg⟩ id
    | refused err =>
      rw [hc] at htells
      simp only [hc]
      exact iff_of_true ⟨htells, rfl⟩ id
    | threw what =>
      simp only [hc]
      exact iff_of_false id fun h => h trivial

/-- Exact arithmetic. -/
def exact : Arith Rat where
  lit q := q
  toDouble i := .fin i
  toFloat
    | .fin q => q
    | _ => 0
  intToFloat i := i
  degenerate ax ay bx by_ := (bx - ax) * (bx - ax) + (by_ - ay) * (by_ - ay) < 1 / 10 ^ 18
  eq p q := p = q

def numberIdText : Bytes :=
  utf8 "\x7b\"lines\": [\x7b\"id\": 5, \"a\": [0, 0], \"b\": [1, 1]\x7d]\x7d"

/-- The text, parsed. -/
def numberId : Json :=
  .obj [("lines", .arr [.obj [("id", .int 5), ("a", .arr [.int 0, .int 0]), ("b", .arr [.int 1, .int 1])]])]

def parsing : Nlohmann where
  parse text := if text = numberIdText then .ok numberId else .error []
  dumpError _ := ""

/-- Before any configuration. -/
def noLines : State Rat Unit Unit .lineCross where
  cfg := (⟨[], 0, 5 / 100, 2 / 100, 15 / 10, 5 / 100, 3, []⟩ : LineCrossCfg Rat)
  kept := ([] : List (LineState Unit Unit))

theorem number_id_throws : ¬ Atomic exact parsing .lineCross noLines numberIdText
    (configure exact parsing .lineCross noLines numberIdText) := by
  have hparse : parsing.parse numberIdText = .ok numberId := by simp [parsing]
  have hthrew : configure exact parsing .lineCross noLines numberIdText =
      .threw "[json.exception.type_error.302] type must be string, but is number" := by
    unfold configure
    rw [hparse]
    rfl
  rw [hthrew]
  exact id

end RetailVision.Analyzers
