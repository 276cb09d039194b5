/-
What the configuration loader accepts as the streams of a device
(`checkStreams_eq_ok`): each one sound in its id, url and threshold
(`Sound`), with a transport and options it can be loaded with (`Loadable`),
and no id twice. Where an error would be reported decides nothing about that
(`PathFree`).
-/
import RetailVision.ConfigReload

set_option linter.all false

namespace RetailVision.Config

/-! ## Checks and their paths -/

variable {py : Py} {p q : String}

/-- Whether a check passes does not depend on the path it would name. -/
def PathFree (check : String → Check) : Prop := ∀ p q, check p = .ok () → check q = .ok ()

theorem pathFree_const {x : Check} : PathFree fun _ => x := fun _ _ h => h

theorem pathFree_err {f : String → String} {msg : String → String} : PathFree fun p => err (f p) (msg p) :=
  fun _ _ h => by cases h

theorem pathFree_ensure {c : Prop} [Decidable c] {f g : String → String} : PathFree fun p => ensure c (f p) (g p) :=
  fun _ _ h => ensure_eq_ok.mpr (ensure_eq_ok.mp h)

theorem PathFree.comp {check : String → Check} (h : PathFree check) (f : String → String) :
    PathFree fun p => check (f p) := fun p q => h (f p) (f q)

theorem PathFree.bind {f g : String → Check} (hf : PathFree f) (hg : PathFree g) :
    PathFree fun p => f p >>= fun _ => g p := fun p q h => by
  obtain ⟨h₁, h₂⟩ := check_bind.mp h
  exact check_bind.mpr ⟨hf p q h₁, hg p q h₂⟩

theorem pathFree_checkNum {v : Json} {lo hi : Option (Rat × String)} : PathFree fun p => checkNum v p lo hi := by
  unfold checkNum
  cases number v with
  | none => exact pathFree_err
  | some x =>
    refine PathFree.bind ?_ ?_
    · cases lo
      · exact pathFree_const
      · exact pathFree_ensure
    · cases hi
      · exact pathFree_const
      · exact pathFree_ensure

theorem pathFree_checkMaxFps {v : Option Json} : PathFree fun p => checkMaxFps py p v := by
  cases v with
  | none => exact pathFree_const
  | some v =>
    refine PathFree.bind pathFree_checkNum ?_
    cases py.float v
    · exact pathFree_const
    · exact pathFree_ensure

theorem pathFree_checkRoiCrop {roi : Json} : PathFree fun p => checkRoiCrop py roi p := by
  unfold checkRoiCrop
  split
  · exact pathFree_const
  · split
    · split
      · refine pathFree_ensure.bind (pathFree_ensure.bind ?_)
        split
        · exact pathFree_ensure
        · exact pathFree_const
      · exact pathFree_const
    · exact pathFree_err
  · exact pathFree_err

theorem pathFree_checkAnalyzer {a : Json} : PathFree fun p => checkAnalyzer py a p := by
  unfold checkAnalyzer
  refine pathFree_ensure.bind ?_
  split
  · refine pathFree_ensure.bind (pathFree_ensure.bind (pathFree_ensure.bind ?_))
    split
    · exact pathFree_err
    · exact pathFree_ensure
  · exact pathFree_err

theorem checkEach_path {check : Json → String → Check} (hc : ∀ x, PathFree (check x)) {xs : List Json} {i k : Nat}
    (h : checkEach check p i xs = .ok ()) : checkEach check q k xs = .ok () := by
  induction xs generalizing i k with
  | nil => rfl
  | cons x xs ih =>
    obtain ⟨h₁, h₂⟩ := check_bind.mp h
    exact check_bind.mpr ⟨hc x _ _ h₁, ih h₂⟩

theorem pathFree_checkAnalyzerList {an : Option Json} : PathFree fun p => checkAnalyzerList py p an := by
  unfold checkAnalyzerList
  split
  · exact pathFree_const
  · exact fun _ _ h => checkEach_path (fun _ => pathFree_checkAnalyzer) h
  · exact pathFree_err

theorem pathFree_checkOptions {options : Json} : PathFree (checkOptions py options) :=
  pathFree_ensure.bind ((pathFree_checkMaxFps.comp _).bind
    ((pathFree_checkRoiCrop.comp _).bind (pathFree_checkAnalyzerList.comp _)))

theorem pathFree_checkTransport {v : Json} : PathFree fun p => checkTransport p v := by
  cases v with
  | str t => exact pathFree_ensure
  | _ => exact pathFree_err

theorem pathFree_checkOptThreshold {v : Option Json} : PathFree fun p => checkOptThreshold p v := by
  unfold checkOptThreshold
  split
  · exact pathFree_const
  · exact pathFree_const
  · exact pathFree_checkNum

/-! ## What is accepted of a stream -/

/-- The id, the url and the threshold of a stream pass. -/
structure Sound (s : Json) : Prop where
  isObject : s.isObject = true
  id : ∃ sid, s.find "stream_id" = some (.str sid) ∧ sid ≠ "" ∧ streamIdRe sid = true
  url : ∃ url, s.find "url" = some (.str url) ∧ url ≠ ""
  threshold : checkOptThreshold "" (s.find "score_threshold") = .ok ()

/-- The transport and the options of a stream pass. -/
structure Loadable (py : Py) (s : Json) : Prop where
  transport : getD s "transport" (.str "tcp") = .str "tcp" ∨ getD s "transport" (.str "tcp") = .str "udp"
  options : checkOptions py (getD s "options" (.obj [])) "" = .ok ()

/-- The id of a stream. -/
def sidOf (s : Json) : String := idOf (getD s "stream_id" .null)

theorem checkStr_eq_ok {v : Json} : checkStr v p true = .ok () ↔ ∃ s, v = .str s ∧ s ≠ "" := by
  cases v <;> simp [checkStr, err]

theorem checkTransport_eq_ok {v : Json} : checkTransport p v = .ok () ↔ v = .str "tcp" ∨ v = .str "udp" := by
  cases v <;> simp [checkTransport, ensure_eq_ok, err]

theorem string_member_eq_ok {s : Json} {k : String} :
    (s.find k).isSome = true ∧ (∃ v, getD s k .null = .str v ∧ v ≠ "") ↔ ∃ v, s.find k = some (.str v) ∧ v ≠ "" := by
  unfold getD
  cases s.find k <;> simp

theorem checkStream_eq_ok {seen : List String} {s : Json} {id : String} :
    checkStream py seen s p = .ok id ↔ Sound s ∧ Loadable py s ∧ sidOf s = id ∧ id ∉ seen := by
  simp only [checkStream, check_bind, checkObject, require, ensure_eq_ok, checkStr_eq_ok, checkTransport_eq_ok, pure,
    Except.pure, Except.ok.injEq]
  constructor
  · rintro ⟨hobj, hidThere, hurlThere, hid, hre, hseen, hurl, htransport, hthreshold, hoptions, rfl⟩
    obtain ⟨sid, hsid, hne⟩ := string_member_eq_ok.mp ⟨hidThere, hid⟩
    rw [getD, hsid] at hre
    exact ⟨⟨hobj, ⟨sid, hsid, hne, hre⟩, string_member_eq_ok.mp ⟨hurlThere, hurl⟩,
        pathFree_checkOptThreshold _ _ hthreshold⟩,
      ⟨htransport, pathFree_checkOptions _ _ hoptions⟩, rfl, hseen⟩
  · rintro ⟨hs, hl, rfl, hseen⟩
    obtain ⟨sid, hsid, hne, hre⟩ := hs.id
    obtain ⟨hidThere, hid⟩ := string_member_eq_ok.mpr ⟨sid, hsid, hne⟩
    obtain ⟨hurlThere, hurl⟩ := string_member_eq_ok.mpr hs.url
    have hsidOf : sidOf s = sid := by rw [sidOf, getD, hsid]; rfl
    refine ⟨hs.isObject, hidThere, hurlThere, hid, ?_, hseen, hurl, hl.transport,
      pathFree_checkOptThreshold _ _ hs.threshold, pathFree_checkOptions _ _ hl.options, rfl⟩
    rw [← sidOf, hsidOf]
    exact hre

theorem stream_bind {x : Except String String} {f : String → Check} :
    x >>= f = .ok () ↔ ∃ id, x = .ok id ∧ f id = .ok () := by
  cases x <;> simp [bind, Except.bind]

/-- **The streams accepted**: each sound and loadable, no id twice. -/
theorem checkStreams_eq_ok {seen : List String} {ss : List Json} {i : Nat} :
    checkStreams py seen i ss = .ok () ↔
      (∀ s ∈ ss, Sound s ∧ Loadable py s) ∧ (ss.map sidOf).Nodup ∧ ∀ s ∈ ss, sidOf s ∉ seen := by
  induction ss generalizing seen i with
  | nil => simp [checkStreams]
  | cons s ss ih =>
    simp only [checkStreams, stream_bind, checkStream_eq_ok, ih, List.map_cons, List.nodup_cons, List.forall_mem_cons]
    constructor
    · rintro ⟨id, ⟨hs, hl, rfl, hseen⟩, hss, hn, hnot⟩
      refine ⟨⟨⟨hs, hl⟩, hss⟩, ⟨?_, hn⟩, hseen, fun t ht hmem => hnot t ht (List.mem_cons_of_mem _ hmem)⟩
      intro hmem
      obtain ⟨t, ht, he⟩ := List.mem_map.mp hmem
      exact hnot t ht (he ▸ List.mem_cons_self)
    · rintro ⟨⟨⟨hs, hl⟩, hss⟩, ⟨hmem, hn⟩, hseen, hnot⟩
      refine ⟨_, ⟨hs, hl, rfl, hseen⟩, hss, hn, fun t ht ht' => ?_⟩
      rcases List.mem_cons.mp ht' with he | ht'
      · exact hmem (List.mem_map.mpr ⟨t, ht, he⟩)
      · exact hnot t ht ht'

end RetailVision.Config
